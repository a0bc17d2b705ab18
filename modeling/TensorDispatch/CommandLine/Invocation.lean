import TensorDispatch.CommandLine.Level
import TensorDispatch.Number.Digits
import TensorDispatch.Rehearsal

/-!
# Invocations

What a command line asks for: a rehearsal of one dispatcher, or the check of a configuration
file. `Invocation.read` is the whole reading of the arguments.
-/

namespace TensorDispatch.CommandLine

/-- How a report is written. -/
inductive Format
  | text
  | json
  deriving DecidableEq, Repr

/-- The spelling of a format. -/
def Format.name : Format → String
  | text => "text"
  | json => "json"

/-- The format with this spelling. -/
def Format.ofName? (s : String) : Option Format :=
  [text, json].find? fun format => format.name == s

/-- What a program is asked to do. -/
inductive Command
  | replay (options : Rehearsal.Options) (format : Format)
  | check (path : String)
  deriving DecidableEq, Repr

/-- What a command line asks for. -/
structure Invocation where
  config : Option String
  verbose : Bool
  command : Command
  deriving DecidableEq, Repr

/-! ### The levels of the command line -/

/-- A check that lets through what a reader accepts. -/
def accept {α : Type} (read : String → Option α) (stop : Stop) (value : String) : Option Stop :=
  if (read value).isSome then none else some stop

/-- A 64-bit number. -/
def word? (s : String) : Option Nat := Number.readBelow? wordBound s

/-- A path may not be empty. -/
def path? (s : String) : Option String := if s.isEmpty then none else some s

/-- An option with a number. -/
def numeric (name : String) (short : Option Char) : Switch :=
  { name, short, effect := .value (accept word? .badValue) }

/-- The option that asks for help on a command. -/
def helpSwitch (command : List String) : Switch :=
  { name := "help", short := some 'h', effect := .stop (.showHelp command) }

/-- The commands. -/
def commandNames : List String := ["replay", "check", "help"]

/-- The level in front of the command. -/
def topLevel : Level where
  switches := [
    { name := "config", short := some 'c', effect := .value (accept path? .noSuchValue) },
    { name := "verbose", short := some 'v', effect := .flag },
    helpSwitch [],
    { name := "version", short := some 'V', effect := .stop .showVersion }]
  commands := commandNames

/-- The level of a rehearsal. -/
def replayLevel : Level where
  switches := [
    { name := "stage", short := some 's', effect := .value (accept Stage.parse? .badValue) },
    numeric "iterations" (some 'i'),
    numeric "partitions" (some 'p'),
    numeric "len" (some 'l'),
    numeric "depth" (some 'd'),
    numeric "seed" none,
    numeric "tensors" (some 't'),
    { name := "format", short := some 'f'
      effect := .value (accept Format.ofName? .noSuchValue) },
    helpSwitch ["replay"]]

/-- The level of a check. -/
def checkLevel : Level where
  switches := [helpSwitch ["check"]]
  positional := some { name := "path", effect := .value (accept path? .noSuchValue) }

/-! ### Reading -/

/-- Reads a level that leads to no further one. -/
def readLast (level : Level) (args : List String) : Except Stop Reading := do
  let (r, _) ← level.read {} args
  r.settle

/-- The value of a settled option, or its default. -/
def Reading.get {α : Type} (read : String → Option α) (name : String) (dflt : α)
    (r : Reading) : α :=
  ((r.settled.lookup name).bind read).getD dflt

/-- The rehearsal that arguments ask for. -/
def readReplay (args : List String) : Except Stop Command := do
  let r ← readLast replayLevel args
  let dflt : Rehearsal.Options := {}
  return .replay {
    stage := r.get Stage.parse? "stage" dflt.stage
    iterations := r.get word? "iterations" dflt.iterations
    partitions := r.get word? "partitions" dflt.partitions
    len := r.get word? "len" dflt.len
    depth := r.get word? "depth" dflt.depth
    seed := r.get word? "seed" dflt.seed
    tensors := r.get word? "tensors" dflt.tensors } (r.get Format.ofName? "format" .text)

/-- The check that arguments ask for. -/
def readCheck (args : List String) : Except Stop Command := do
  let r ← readLast checkLevel args
  match r.settled.lookup "path" with
  | some path => return .check path
  | none => .error .missingArgument

/-- What the request for help on a command leads to. -/
def readHelp : List String → Stop
  | [] => .showHelp []
  | [name] => if commandNames.contains name then .showHelp [name] else .unknownCommand
  | _ => .unknownCommand

/-- The command of a name. -/
def readCommand (name : String) (args : List String) : Except Stop Command :=
  if name = "replay" then readReplay args
  else if name = "check" then readCheck args
  else .error (readHelp args)

/-- What the arguments of a command line ask for. -/
def Invocation.read (args : List String) : Except Stop Invocation := do
  let (r, called) ← topLevel.read {} args
  match called with
  | some (name, args) =>
    let command ← readCommand name args
    let r ← r.settle
    return {
      config := r.settled.lookup "config"
      verbose := (r.settled.lookup "verbose").isSome
      command }
  | none =>
    let r ← r.settle
    if r.settled.isEmpty then .error .nothingAsked else .error .missingCommand

end TensorDispatch.CommandLine
