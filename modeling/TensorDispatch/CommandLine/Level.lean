/-!
# Levels of a command line

One **level** of a command line has options, at most one positional value, and names of commands
that lead to further levels. An option may be written long, its value behind it or after an
equals sign, or short, and short options may be run together.

A value is checked when the next option or positional value begins, or at the end of the level:
until then it is **pending**. So of several mistakes, the first in this order is reported.
-/

namespace TensorDispatch.CommandLine

/-- What ends the reading of a command line without a command to run. -/
inductive Stop
  /-- Help is asked for, on the command with this path. -/
  | showHelp (command : List String)
  | showVersion
  /-- Nothing is asked for. -/
  | nothingAsked
  | badValue
  /-- A value is missing, empty, or not among the ones there are. -/
  | noSuchValue
  | unneededValue
  | unknownArgument
  | unknownCommand
  | repeatedOption
  | missingArgument
  | missingCommand
  deriving DecidableEq, Repr

/-- What an option does. -/
inductive Effect
  /-- It turns something on. -/
  | flag
  /-- It takes a value, which a check may find at fault. -/
  | value (fault : String → Option Stop)
  /-- It ends the reading. -/
  | stop (reason : Stop)

/-- An option, or a positional value. -/
structure Switch where
  name : String
  short : Option Char := none
  effect : Effect

/-- What may be written on one level. -/
structure Level where
  switches : List Switch
  positional : Option Switch := none
  commands : List String := []

/-- What has been read of a level. -/
structure Reading where
  /-- The options and values that are settled, each by its name. -/
  settled : List (String × String) := []
  /-- The option or value that is not settled yet, with its value if it has one. -/
  pending : Option (Switch × Option String) := none
  /-- Whether the next argument is the value of the pending option. -/
  awaiting : Bool := false
  /-- Whether everything that follows is positional. -/
  trailing : Bool := false
  /-- Whether the positional value has been given. -/
  filled : Bool := false

namespace Reading

/-- Settles an option with a value. It may be given once, and its value is checked. -/
def settleWith (s : Switch) (value : String) (r : Reading) : Except Stop Reading :=
  if (r.settled.lookup s.name).isSome then .error .repeatedOption
  else
    let fault :=
      match s.effect with
      | .value fault => fault value
      | _ => none
    match fault with
    | some stop => .error stop
    | none => .ok { r with settled := r.settled ++ [(s.name, value)] }

/-- Settles what is pending. -/
def settle (r : Reading) : Except Stop Reading :=
  let rest := { r with pending := none, awaiting := false }
  match r.pending with
  | none => .ok rest
  | some (_, none) => .error .noSuchValue
  | some (s, some value) => rest.settleWith s value

/-- An option is written, with a value if one is attached to it. -/
def option (s : Switch) (attached : Option String) (r : Reading) : Except Stop Reading :=
  match s.effect, attached with
  | .value _, none => do
    let r ← r.settle
    return { r with pending := some (s, none), awaiting := true }
  | .value _, some value => do (← r.settle).settleWith s value
  | .flag, none => do (← r.settle).settleWith s "true"
  | .stop reason, none => do
    let _ ← r.settle
    .error reason
  | _, some _ => .error .unneededValue

/-- A positional value is written. -/
def positional (level : Level) (value : String) (r : Reading) : Except Stop Reading :=
  match level.positional with
  | some s =>
    if r.filled then .error .unknownArgument
    else do
      let r ← r.settle
      return { r with pending := some (s, some value), filled := true }
  | none =>
    if level.commands.isEmpty || (r.trailing && level.commands.contains value) then
      .error .unknownArgument
    else .error .unknownCommand

/-- Short options run together. What follows an option with a value is its value. -/
def cluster (level : Level) : List Char → Reading → Except Stop Reading
  | [], r => .ok r
  | c :: cs, r =>
    match level.switches.find? fun s => s.short == some c with
    | none => .error .unknownArgument
    | some s =>
      match s.effect with
      | .value _ =>
        match cs with
        | [] => r.option s none
        | '=' :: cs => r.option s (some (String.ofList cs))
        | cs => r.option s (some (String.ofList cs))
      | _ => do
        let r ← r.option s none
        cluster level cs r

/-- A long option: its name, and behind an equals sign a value. -/
def long (level : Level) (cs : List Char) (r : Reading) : Except Stop Reading :=
  let name := String.ofList (cs.takeWhile (· != '='))
  let attached :=
    match cs.dropWhile (· != '=') with
    | [] => none
    | _ :: value => some (String.ofList value)
  match level.switches.find? fun s => s.name == name with
  | none => .error .unknownArgument
  | some s => r.option s attached

/-- One argument. -/
def argument (level : Level) (arg : String) (r : Reading) : Except Stop Reading :=
  if r.trailing then r.positional level arg
  else
    match arg.toList with
    | ['-', '-'] => .ok { r with trailing := true, awaiting := false }
    | '-' :: '-' :: cs => r.long level cs
    | '-' :: c :: cs => cluster level (c :: cs) r
    | _ =>
      match r.awaiting, r.pending with
      | true, some (s, _) => .ok { r with pending := some (s, some arg), awaiting := false }
      | _, _ => r.positional level arg

end Reading

/-- Reads a level, up to the name of a command if there is one; gives back what has been read,
the command and the arguments behind it. -/
def Level.read (level : Level) : Reading → List String →
    Except Stop (Reading × Option (String × List String))
  | r, [] => .ok (r, none)
  | r, arg :: args =>
    if !r.trailing && !r.awaiting && level.commands.contains arg then .ok (r, some (arg, args))
    else do
      let r ← r.argument level arg
      level.read r args

end TensorDispatch.CommandLine
