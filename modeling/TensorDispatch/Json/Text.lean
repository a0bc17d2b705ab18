import TensorDispatch.Json

/-!
# The text of a structured value

Reading the text of a JSON value. A number is an **integer** if it is written as one, with neither
a point nor an exponent; minus zero is none, because only a double has it. A name that an object
gives several times counts where it is given last.

The functions below follow the grammar. Each takes the characters to read and gives back a value
with the characters behind it. All of them are bounded by one fuel: on the way down at least every
second call takes a character, so twice the number of characters is enough.
-/

namespace TensorDispatch.Json

/-! ### Scalars -/

/-- White space between the parts of a text. -/
def isSpace (c : Char) : Bool := c = ' ' || c = '\t' || c = '\n' || c = '\r'

/-- What follows white space. -/
def skipSpace (cs : List Char) : List Char := cs.dropWhile isSpace

/-- What follows a given word. -/
def after? (word : String) (cs : List Char) : Option (List Char) :=
  if word.toList.isPrefixOf cs then some (cs.drop word.length) else none

/-- A run of digits and what follows it. -/
def digits (cs : List Char) : List Char × List Char :=
  (cs.takeWhile Char.isDigit, cs.dropWhile Char.isDigit)

/-- The whole part of a number: zero alone, or digits that do not start with it. -/
def whole? (cs : List Char) : Option (List Char × List Char) :=
  match digits cs with
  | ([], _) => none
  | ('0' :: _ :: _, _) => none
  | found => some found

/-- The places behind a point, if there is one. -/
def places? : List Char → Option (Option (List Char) × List Char)
  | '.' :: cs =>
    match digits cs with
    | ([], _) => none
    | (found, cs) => some (some found, cs)
  | cs => some (none, cs)

/-- An exponent, if there is one. -/
def exponent? : List Char → Option (Option Int × List Char)
  | c :: cs =>
    if c = 'e' ∨ c = 'E' then
      let (negative, cs) := Number.Decimal.splitSign cs
      let (found, cs) := digits cs
      (Number.ofDigits? 10 found).map fun n => (some (if negative then -(n : Int) else n), cs)
    else some (none, c :: cs)
  | [] => some (none, [])

/-- A number without its sign. -/
def unsigned? (negative : Bool) (cs : List Char) : Option (Json × List Char) := do
  let (whole, cs) ← whole? cs
  let (places, cs) ← places? cs
  let (exponent, cs) ← exponent? cs
  let found := places.getD []
  let n ← Number.ofDigits? 10 (whole ++ found)
  let isInteger := places.isNone && exponent.isNone && !(negative && n = 0)
  return (if isInteger then .integer (if negative then -(n : Int) else n)
    else .decimal { negative, digits := n, exponent := exponent.getD 0 - found.length }, cs)

/-- A number. -/
def number? : List Char → Option (Json × List Char)
  | '-' :: cs => unsigned? true cs
  | cs => unsigned? false cs

/-- The character that a letter behind a backslash stands for. -/
def escape? : Char → Option Char
  | '"' => some '"'
  | '\\' => some '\\'
  | '/' => some '/'
  | 'b' => some '\x08'
  | 'f' => some '\x0c'
  | 'n' => some '\n'
  | 'r' => some '\r'
  | 't' => some '\t'
  | _ => none

/-- A number of four hexadecimal digits behind `\u`. -/
def unit? : List Char → Option (Nat × List Char)
  | '\\' :: 'u' :: a :: b :: c :: d :: cs =>
    (Number.ofDigits? 16 [a, b, c, d]).map fun n => (n, cs)
  | _ => none

/-- A character told by its number, or by the two halves of a surrogate pair. -/
def numbered? (cs : List Char) : Option (Char × List Char) := do
  let (high, cs) ← unit? cs
  if high.isValidChar then return (Char.ofNat high, cs)
  else if high < 0xdc00 then
    let (low, cs) ← unit? cs
    if 0xdc00 ≤ low ∧ low < 0xe000 then
      return (Char.ofNat (0x10000 + 0x400 * (high - 0xd800) + (low - 0xdc00)), cs)
    else none
  else none

/-- The characters up to the closing quote. -/
def characters? : (fuel : Nat) → List Char → Option (List Char × List Char)
  | 0, _ => none
  | fuel + 1, cs =>
    match cs with
    | [] => none
    | '"' :: cs => some ([], cs)
    | '\\' :: 'u' :: _ => do
      let (c, cs) ← numbered? cs
      let (found, cs) ← characters? fuel cs
      return (c :: found, cs)
    | '\\' :: e :: cs => do
      let c ← escape? e
      let (found, cs) ← characters? fuel cs
      return (c :: found, cs)
    | c :: cs =>
      if c.toNat < 0x20 then none
      else do
        let (found, cs) ← characters? fuel cs
        return (c :: found, cs)

/-- A name between quotes. -/
def name? (fuel : Nat) : List Char → Option (String × List Char)
  | '"' :: cs => (characters? fuel cs).map fun (found, cs) => (String.ofList found, cs)
  | _ => none

/-! ### Values -/

/-- The fields without those that are given again later. -/
def lastGiven : List (String × Json) → List (String × Json)
  | [] => []
  | field :: fields =>
    if fields.any (·.1 == field.1) then lastGiven fields else field :: lastGiven fields

mutual

/-- The value that starts here. -/
def value? : (fuel : Nat) → List Char → Option (Json × List Char)
  | 0, _ => none
  | fuel + 1, cs =>
    match skipSpace cs with
    | 'n' :: cs => (after? "ull" cs).map (null, ·)
    | 't' :: cs => (after? "rue" cs).map (bool true, ·)
    | 'f' :: cs => (after? "alse" cs).map (bool false, ·)
    | '"' :: cs => (characters? fuel cs).map fun (found, cs) => (text (String.ofList found), cs)
    | '[' :: cs =>
      match skipSpace cs with
      | ']' :: cs => some (array [], cs)
      | cs => (items? fuel cs).map fun (items, cs) => (array items, cs)
    | '{' :: cs =>
      match skipSpace cs with
      | '}' :: cs => some (object [], cs)
      | cs => (fields? fuel cs).map fun (fields, cs) => (object (lastGiven fields), cs)
    | cs => number? cs

/-- The items of an array, and its end. -/
def items? : (fuel : Nat) → List Char → Option (List Json × List Char)
  | 0, _ => none
  | fuel + 1, cs => do
    let (item, cs) ← value? fuel cs
    match skipSpace cs with
    | ',' :: cs =>
      let (items, cs) ← items? fuel cs
      return (item :: items, cs)
    | ']' :: cs => return ([item], cs)
    | _ => none

/-- The fields of an object, and its end. -/
def fields? : (fuel : Nat) → List Char → Option (List (String × Json) × List Char)
  | 0, _ => none
  | fuel + 1, cs => do
    let (name, cs) ← name? fuel (skipSpace cs)
    match skipSpace cs with
    | ':' :: cs =>
      let (value, cs) ← value? fuel cs
      match skipSpace cs with
      | ',' :: cs =>
        let (fields, cs) ← fields? fuel cs
        return ((name, value) :: fields, cs)
      | '}' :: cs => return ([(name, value)], cs)
      | _ => none
    | _ => none

end

/-- The value of a text. -/
def ofText? (s : String) : Option Json := do
  let cs := s.toList
  let (value, cs) ← value? (2 * cs.length + 2) cs
  if (skipSpace cs).isEmpty then return value else none

/-- The value of a field of an object. -/
def field? (name : String) : Json → Option Json
  | object fields => fields.lookup name
  | _ => none

end TensorDispatch.Json
