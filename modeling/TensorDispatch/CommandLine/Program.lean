import TensorDispatch.CommandLine.Help
import TensorDispatch.CommandLine.Invocation
import TensorDispatch.Config.Document
import TensorDispatch.Config.Load
import TensorDispatch.Rehearsal.Listing

/-!
# The program

What the program writes and how it ends, given its arguments and the files around it: a report
or a verdict on a file, a chain of error messages, or the fault that broke a rehearsal off.
-/

namespace TensorDispatch.CommandLine

/-- How the program ends. -/
inductive Ending
  /-- All went well. -/
  | success
  /-- The messages of the error, from the outermost inwards. -/
  | failure (messages : List String)
  /-- The arguments ask for nothing that can be done. -/
  | usage (reason : Stop)
  /-- The rehearsal broke off. -/
  | fault (fault : Fault)
  deriving DecidableEq, Repr

/-- The exit code of an ending. -/
def Ending.code : Ending → Nat
  | success => 0
  | failure _ => 1
  | usage _ => 2
  | fault _ => 101

/-- What the program writes, line by line, and how it ends. -/
structure Result where
  lines : List String := []
  ending : Ending := .success
  deriving DecidableEq, Repr

/-- What surrounds the program. -/
structure Surroundings where
  files : Files
  /-- The directory of the user's configuration. -/
  userDir : Option String
  /-- Whether the output shows colours. -/
  coloured : Bool

/-- Ends with an error inside a context. -/
def failWith (context : String) (messages : List String) : Result :=
  { ending := .failure (context :: messages) }

/-- The lines of a report in a format. -/
def reportLines (coloured : Bool) (format : Format) (report : Rehearsal.Report) : List String :=
  match format with
  | .text => report.lines coloured
  | .json => [report.toJson.pretty]

/-- Rehearses the dispatcher of the configuration in force. -/
def runReplay (around : Surroundings) (path : Option String) (options : Rehearsal.Options)
    (format : Format) : Result :=
  match Config.load Config.ofText? around.files around.userDir path with
  | .error error =>
    failWith "Failed to load configuration" (Config.explicitMessages (path.getD "") error)
  | .ok config =>
    match Rehearsal.run config options with
    | .error (.fault fault) => { ending := .fault fault }
    | .error failure => failWith "Replay failed" [failure.message]
    | .ok report => { lines := reportLines around.coloured format report }

open Text in
/-- The verdict on a file that holds a usable configuration. -/
def verdict (coloured : Bool) (path : String) (config : Config) : String :=
  paint coloured [.green] "✓" ++ s!" {path} is valid (strategy: "
    ++ paint coloured [.cyan] config.queue.strategy.name ++ ")"

/-- Checks a configuration file. -/
def runCheck (around : Surroundings) (path : String) : Result :=
  match Config.ofFile Config.ofText? around.files path with
  | .error error => failWith s!"Invalid config {path}" error.messages
  | .ok config => { lines := [verdict around.coloured path config] }

/-- Runs what an invocation asks for. -/
def Invocation.run (around : Surroundings) (i : Invocation) : Result :=
  match i.command with
  | .replay options format => runReplay around i.config options format
  | .check path => runCheck around path

/-- Runs the program. -/
def run (around : Surroundings) (args : List String) : Result :=
  match Invocation.read args with
  | .ok invocation => invocation.run around
  | .error (.showHelp command) => { lines := (helpOn command).lines around.coloured }
  | .error .showVersion => { lines := [versionLine] }
  | .error reason => { ending := .usage reason }

/-- The files that an invocation may look at. -/
def Invocation.paths (userDir : Option String) (i : Invocation) : List String :=
  match i.command, i.config with
  | .check path, _ => [path]
  | .replay .., some path => [path]
  | .replay .., none => Config.localPath :: (userDir.map Config.userPath).toList

end TensorDispatch.CommandLine
