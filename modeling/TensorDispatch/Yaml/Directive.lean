import TensorDispatch.Number.Digits
import TensorDispatch.Yaml.Character

/-!
# Directives

A line in front of a document that starts with a percent sign is a **directive**: it tells the
version of the format, or what a tag handle stands for. Neither changes what a document without
tags means, so all that matters of a directive is that it is well formed. A document may have one
version, which has to be a known one, and each handle once (`Directive.areUsable`).
-/

namespace TensorDispatch.Yaml

/-- A line in front of a document. -/
inductive Directive
  | version (major minor : Nat)
  | tag (handle : String)
  deriving DecidableEq, Repr

namespace Directive

/-- A character of a word. -/
def isWordChar (c : Char) : Bool := c.isAlphanum || c = '_' || c = '-'

/-- What follows at least one blank. -/
def afterBlanks? : List Char → Option (List Char)
  | [] => none
  | c :: cs => if isBlank c then some (cs.dropWhile isBlank) else none

/-- The longest number of a version. -/
def versionDigits : Nat := 9

/-- A number of a version. -/
def number? (cs : List Char) : Option (Nat × List Char) := do
  let digits := cs.takeWhile Char.isDigit
  if versionDigits < digits.length then none
  else return (← Number.ofDigits? 10 digits, cs.dropWhile Char.isDigit)

/-- A version: two numbers with a point between them. -/
def version? (cs : List Char) : Option (Directive × List Char) := do
  let (major, cs) ← number? cs
  match cs with
  | '.' :: cs =>
    let (minor, cs) ← number? cs
    return (version major minor, cs)
  | _ => none

/-- A handle: an exclamation mark, or a word between two of them. -/
def handle? : List Char → Option (String × List Char)
  | '!' :: cs =>
    let word := cs.takeWhile isWordChar
    match cs.dropWhile isWordChar with
    | '!' :: cs => some ("!" ++ String.ofList word ++ "!", cs)
    | cs => if word.isEmpty then some ("!", cs) else none
  | _ => none

/-- The byte behind a percent sign. -/
def escapedByte? : List Char → Option (Nat × List Char)
  | '%' :: a :: b :: cs => do
    let value ← Number.ofDigits? 16 [a, b]
    return (value, cs)
  | _ => none

/-- How many bytes a character has that starts with this byte. -/
def byteCount? (first : Nat) : Option Nat :=
  if first < 0x80 then some 1
  else if first < 0xc0 then none
  else if first < 0xe0 then some 2
  else if first < 0xf0 then some 3
  else if first < 0xf8 then some 4
  else none

/-- What follows `n` escaped bytes that continue a character. -/
def afterContinuation? : (n : Nat) → List Char → Option (List Char)
  | 0, cs => some cs
  | n + 1, cs => do
    let (byte, cs) ← escapedByte? cs
    if 0x80 ≤ byte ∧ byte < 0xc0 then afterContinuation? n cs else none

/-- A character that may stand in an address as it is. -/
def isAddressChar (c : Char) : Bool :=
  isWordChar c || c ∈ [';', '/', '?', ':', '@', '&', '=', '+', '$', '.', '!', '~', '*', '\'', '(',
    ')', ',', '[', ']']

/-- What follows the characters of an address; `fuel` bounds their number. -/
def afterAddress? : (fuel : Nat) → List Char → Option (List Char)
  | 0, _ => none
  | fuel + 1, cs =>
    match cs with
    | '%' :: _ => do
      let (byte, cs) ← escapedByte? cs
      let cs ← afterContinuation? ((← byteCount? byte) - 1) cs
      afterAddress? fuel cs
    | c :: cs => if isAddressChar c then afterAddress? fuel cs else some (c :: cs)
    | [] => some []

/-- A handle and the address it stands for. -/
def tag? (cs : List Char) : Option (Directive × List Char) := do
  let (handle, cs) ← handle? cs
  let cs ← afterBlanks? cs
  let rest ← afterAddress? (cs.length + 1) cs
  if rest.length < cs.length && endsWord rest then return (tag handle, rest) else none

/-- What follows the line of a directive, behind space and perhaps a comment. -/
def afterLine? (cs : List Char) : Option (List Char) :=
  match cs.dropWhile isBlank with
  | [] => some []
  | c :: cs =>
    if c = '#' then some (cs.dropWhile fun c => !isBreak c).tail
    else if isBreak c then some cs
    else none

/-- The directive behind a percent sign, and what follows its line. -/
def read? (cs : List Char) : Option (Directive × List Char) := do
  let name := String.ofList (cs.takeWhile isWordChar)
  let cs := cs.dropWhile isWordChar
  if !endsWord cs then none
  else
    let cs := cs.dropWhile isBlank
    let (directive, cs) ←
      if name = "YAML" then version? cs else if name = "TAG" then tag? cs else none
    return (directive, ← afterLine? cs)

/-- Whether the version is one of those that can be read. -/
def isKnown : Directive → Bool
  | version major minor => major = 1 && (minor = 1 || minor = 2)
  | tag _ => true

/-- Whether a directive tells the version. -/
def isVersion : Directive → Bool
  | version .. => true
  | tag _ => false

/-- Whether these directives may stand together in front of one document. -/
def areUsable (ds : List Directive) : Bool :=
  ds.all isKnown && (ds.filter isVersion).length ≤ 1 && decide (ds.Nodup)

end Directive

end TensorDispatch.Yaml
