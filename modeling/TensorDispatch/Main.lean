import TensorDispatch.CommandLine.Program

/-!
# The command line program

Reads the files that the arguments lead to, runs the program on them, and writes what it says.
-/

namespace TensorDispatch.Main

open CommandLine

/-- The text of a file. A path that leads through a file cannot be opened, and a directory can
be opened but not read. -/
def readText (path : String) : IO (Except FileError String) := do
  try
    match String.fromUTF8? (← IO.FS.readBinFile path) with
    | some text => return .ok text
    | none => return .error .notText
  catch
    | .noFileOrDirectory .. => return .error .absent
    | .inappropriateType (some _) .. => return .error .notDirectory
    | .inappropriateType none .. => return .error .directory
    | .invalidArgument .. => return .error .nameTooLong
    | error => return .error (.other (toString error))

/-- The directory of the user's configuration. -/
def userDir : IO (Option String) := do
  match ← IO.getEnv "XDG_CONFIG_HOME" with
  | some dir => if dir.startsWith "/" then return some dir else homeDir
  | none => homeDir
where
  /-- The directory below the user's home. -/
  homeDir : IO (Option String) := do
    return (← IO.getEnv "HOME").map (· ++ "/.config")

/-- Reads the files that arguments lead to. -/
def readFiles (dir : Option String) (args : List String) : IO Files := do
  let paths :=
    match Invocation.read args with
    | .ok invocation => invocation.paths dir
    | .error _ => []
  let texts ← paths.mapM fun path => return (path, ← readText path)
  return { read := fun path => (texts.lookup path).getD (.error .absent) }

/-- What is said on the error output. -/
def complaint : Ending → Option String
  | .success => none
  | .failure messages => some ("Error: " ++ ": ".intercalate messages)
  | .usage _ => some ("\n".intercalate (programHelp.lines false))
  | .fault fault => some fault.message

end TensorDispatch.Main

open TensorDispatch in
/-- The program. -/
def main (args : List String) : IO UInt32 := do
  let dir ← Main.userDir
  let stdout ← IO.getStdout
  let around : CommandLine.Surroundings :=
    { files := ← Main.readFiles dir args, userDir := dir, coloured := ← stdout.isTty }
  let result := CommandLine.run around args
  for line in result.lines do
    stdout.putStrLn line
  stdout.flush
  if let some text := Main.complaint result.ending then
    IO.eprintln text
  return UInt32.ofNat result.ending.code
