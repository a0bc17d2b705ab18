/-!
# Files

What a program can learn of the files around it: the text of a path, or why there is none. A
**tree** of texts and directories answers the way a file system that holds them would. A path is
followed step by step from the working directory, or from the root if it starts with a slash.
-/

namespace TensorDispatch

/-- Why a path gives no text. -/
inductive FileError
  | absent
  | notDirectory
  | directory
  /-- The path, or a name in it, is longer than the system takes. -/
  | nameTooLong
  /-- The path holds the character that ends a path. -/
  | endInside
  /-- The bytes of the file are no text. -/
  | notText
  | other (message : String)
  deriving DecidableEq, Repr

/-- The wording of the system for a file error. -/
def FileError.message : FileError → String
  | absent => "No such file or directory (os error 2)"
  | notDirectory => "Not a directory (os error 20)"
  | directory => "Is a directory (os error 21)"
  | nameTooLong => "File name too long (os error 36)"
  | endInside => "file name contained an unexpected NUL byte"
  | notText => "stream did not contain valid UTF-8"
  | other message => message

/-- The texts of the files around a program. -/
structure Files where
  read : String → Except FileError String

namespace Files

/-! ### Paths -/

/-- The steps of a path: the names between slashes. -/
def steps (path : String) : List String := (path.splitOn "/").filter (!·.isEmpty)

/-- Whether a path says that it names a directory. -/
def namesDirectory (path : String) : Bool :=
  path.endsWith "/" || path.endsWith "/." || path.endsWith "/.."

/-- Whether a path starts at the root. -/
def isAbsolute (path : String) : Bool := path.startsWith "/"

/-- Whether a step only moves between directories. -/
def isMove (step : String) : Bool := step = "." || step = ".."

/-- The most bytes of a name. -/
def nameLimit : Nat := 255

/-- The number of bytes from which on a path is not looked up. -/
def pathLimit : Nat := 4096

/-- Why a path is not looked up at all. -/
def pathFault? (path : String) : Option FileError :=
  if path.contains '\x00' then some .endInside
  else if path.isEmpty then some .absent
  else if pathLimit ≤ path.utf8ByteSize then some .nameTooLong
  else none

/-! ### Trees -/

/-- The texts and the directories below a place, each by the steps that lead to it. A directory
that leads to one of them need not be told. -/
structure Tree where
  texts : List (List String × String) := []
  directories : List (List String) := []

/-- The tree of some texts and directories, each under its path. -/
def Tree.ofPaths (texts : List (String × String)) (directories : List String) : Tree where
  texts := texts.map fun (path, text) => (steps path, text)
  directories := directories.map steps

/-- What stands at a place of a tree. -/
inductive Entry
  | file (text : String)
  | directory
  deriving DecidableEq, Repr

namespace Tree

/-- What stands at a place of a tree, the place told by its steps. -/
def at? (t : Tree) (place : List String) : Option Entry :=
  match t.texts.lookup place with
  | some text => some (.file text)
  | none =>
    if place.isEmpty || t.texts.any (fun (other, _) => place.isPrefixOf other)
        || t.directories.any (fun other => place.isPrefixOf other) then
      some .directory
    else none

/-- What a path leads to from above a tree, where nothing but directories is known. -/
def followAbove (rest : List String) : Except FileError Entry :=
  match rest.find? fun step => !isMove step with
  | none => .ok .directory
  | some step => .error (if nameLimit < step.utf8ByteSize then .nameTooLong else .absent)

/-- Follows the steps of a path from a place, which has to be a directory for each of them. Above
the top of a tree there is nothing if the top is the root, and else something that is not known. -/
def follow (t : Tree) (isRoot : Bool) : (place : List String) → List String → Except FileError Entry
  | place, [] =>
    match t.at? place with
    | some entry => .ok entry
    | none => .error .absent
  | place, step :: rest =>
    match t.at? place with
    | none => .error .absent
    | some (.file _) => .error .notDirectory
    | some .directory =>
      if step = "." then t.follow isRoot place rest
      else if step = ".." then
        if place.isEmpty && !isRoot then followAbove rest
        else t.follow isRoot place.dropLast rest
      else if nameLimit < step.utf8ByteSize then .error .nameTooLong
      else t.follow isRoot (place ++ [step]) rest

end Tree

/-- The files of a tree below the working directory and of one below the root. -/
def ofTrees (here root : Tree) : Files where
  read path :=
    match pathFault? path with
    | some error => .error error
    | none =>
      let top := if isAbsolute path then root else here
      match top.follow (isAbsolute path) [] (steps path) with
      | .error error => .error error
      | .ok .directory => .error .directory
      | .ok (.file text) => if namesDirectory path then .error .notDirectory else .ok text

end Files

end TensorDispatch
