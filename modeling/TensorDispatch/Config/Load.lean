import TensorDispatch.Config
import TensorDispatch.Files

/-!
# Loading a configuration

A configuration comes from the file that is asked for, and then nothing else will do. If none is
asked for, the project's own file and the user's file are tried in turn; one that is missing,
malformed or unusable is passed over, and the defaults stand at the end.

The reader of the text is a parameter: loading is the same whatever the texts are written in.
-/

namespace TensorDispatch

/-- Why a file gives no configuration. -/
inductive LoadError
  | unreadable (error : FileError)
  | malformed
  | unusable (error : ConfigError)
  deriving DecidableEq, Repr

/-- What is said of a file that gives no configuration, from the outermost message inwards. -/
def LoadError.messages : LoadError → List String
  | unreadable error => ["Failed to read config file", error.message]
  | malformed => ["Failed to parse config file"]
  | unusable error => ["Invalid queue configuration", error.message]

namespace Config

/-- The project's own configuration file. -/
def localPath : String := ".stagequeue.yml"

/-- The user's configuration file, below the directory of the user's configuration. -/
def userPath (userDir : String) : String := userDir ++ "/stagequeue/stagequeue.yml"

/-- The configuration of a text, if it is usable. -/
def ofValidText (parse : String → Option Config) (s : String) : Except LoadError Config :=
  match parse s with
  | none => .error .malformed
  | some config =>
    match config.queue.validate with
    | .ok () => .ok config
    | .error error => .error (.unusable error)

/-- The configuration of a file. -/
def ofFile (parse : String → Option Config) (files : Files) (path : String) :
    Except LoadError Config :=
  match files.read path with
  | .ok s => ofValidText parse s
  | .error error => .error (.unreadable error)

/-- The first usable configuration among some files, or else the defaults. -/
def firstOf (parse : String → Option Config) (files : Files) : List String → Config
  | [] => {}
  | path :: paths =>
    match ofFile parse files path with
    | .ok config => config
    | .error _ => firstOf parse files paths

/-- What is said of a file that was asked for and gives no configuration. -/
def explicitMessages (path : String) (error : LoadError) : List String :=
  s!"Failed to load config from {path}" :: error.messages

/-- The configuration of the file that is asked for, or of the first usable one of the project
and the user. -/
def load (parse : String → Option Config) (files : Files) (userDir : Option String)
    (path : Option String) : Except LoadError Config :=
  match path with
  | some path => ofFile parse files path
  | none => .ok (firstOf parse files (localPath :: (userDir.map userPath).toList))

end Config

end TensorDispatch
