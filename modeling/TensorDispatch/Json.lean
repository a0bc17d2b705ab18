import TensorDispatch.Number.Decimal
import TensorDispatch.Text.Quoted

/-!
# Structured values

The values of JSON, with the fields of an object in the order in which they are written, and
their indented text. `Json.record?` reads a record with known fields: all of them have to be
there, other fields do not matter, and a list of just the values, in order, will do as well.
-/

namespace TensorDispatch

/-- A value of JSON. A number that is not written as an integer is kept as a decimal. -/
inductive Json
  | null
  | bool (b : Bool)
  | integer (n : Int)
  | decimal (d : Number.Decimal)
  | text (s : String)
  | array (items : List Json)
  | object (fields : List (String × Json))

instance : Inhabited Json := ⟨.null⟩

namespace Json

/-! ### Writing -/

/-- How a character is written in a text. -/
def escapedChar (c : Char) : String :=
  match c with
  | '"' => "\\\""
  | '\\' => "\\\\"
  | '\x08' => "\\b"
  | '\x0c' => "\\f"
  | '\n' => "\\n"
  | '\r' => "\\r"
  | '\t' => "\\t"
  | c => if c.toNat < 0x20 then "\\u" ++ Text.padHex 4 c.toNat else c.toString

/-- A text between quotes. -/
def escaped (s : String) : String :=
  "\"" ++ String.join (s.toList.map escapedChar) ++ "\""

/-- The start of a line inside `depth` brackets. -/
def newline (depth : Nat) : String := "\n" ++ String.ofList (List.replicate (2 * depth) ' ')

mutual

/-- The indented text of a value inside `depth` brackets. -/
def render (depth : Nat) : Json → String
  | null => "null"
  | bool b => if b then "true" else "false"
  | integer n => toString n
  | decimal d => (if d.negative then "-" else "") ++ toString d.digits ++ "e" ++ toString d.exponent
  | text s => escaped s
  | array [] => "[]"
  | array (item :: items) =>
    "[" ++ newline (depth + 1) ++ render (depth + 1) item ++ renderItems (depth + 1) items
      ++ newline depth ++ "]"
  | object [] => "\x7b\x7d"
  | object ((name, value) :: fields) =>
    "\x7b" ++ newline (depth + 1) ++ escaped name ++ ": " ++ render (depth + 1) value
      ++ renderFields (depth + 1) fields ++ newline depth ++ "\x7d"

/-- Further items, each on a line of its own. -/
def renderItems (depth : Nat) : List Json → String
  | [] => ""
  | item :: items => "," ++ newline depth ++ render depth item ++ renderItems depth items

/-- Further fields, each on a line of its own. -/
def renderFields (depth : Nat) : List (String × Json) → String
  | [] => ""
  | (name, value) :: fields =>
    "," ++ newline depth ++ escaped name ++ ": " ++ render depth value
      ++ renderFields depth fields

end

/-- The indented text of a value. -/
def pretty (value : Json) : String := value.render 0

/-! ### Reading -/

/-- The values of the named fields, in the order of the names. -/
def record? (names : List String) : Json → Option (List Json)
  | object fields => names.mapM fun name => fields.lookup name
  | array items => if items.length = names.length then some items else none
  | _ => none

/-- A natural number below the bound. -/
def nat? (bound : Nat) : Json → Option Nat
  | integer n => if 0 ≤ n ∧ n < bound then some n.toNat else none
  | _ => none

/-- A truth value. -/
def bool? : Json → Option Bool
  | bool b => some b
  | _ => none

/-- A word: a text, or an object with nothing in its only field. -/
def word? : Json → Option String
  | text s => some s
  | object [(s, null)] => some s
  | _ => none

end Json

end TensorDispatch
