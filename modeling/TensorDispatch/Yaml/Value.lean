import TensorDispatch.Number.Decimal
import TensorDispatch.Number.Width
import TensorDispatch.Yaml.Node

/-!
# Values of plain scalars

What a scalar without quotes may stand for: nothing, a truth value, an integer or a double. An
**integer** is decimal, without zeros in front, or hexadecimal, octal or binary behind `0x`, `0o`
or `0b`; a sign stands in front of all of it. A **double** is a decimal number that does not
overflow, or one of the words for the infinities and for no number.

Usually the place of a scalar tells which of these is asked for. `meaning` is what a scalar stands
for on its own.
-/

namespace TensorDispatch.Yaml.Value

/-- Whether the text stands for nothing. -/
def isNull (s : String) : Bool := s = "~" || s = "null" || s = "Null" || s = "NULL"

/-- Whether nothing is written, or a text that stands for nothing. -/
def isAbsent (s : String) : Bool := s.isEmpty || isNull s

/-- The truth value of a text. -/
def bool? (s : String) : Option Bool :=
  if s = "true" ∨ s = "True" ∨ s = "TRUE" then some true
  else if s = "false" ∨ s = "False" ∨ s = "FALSE" then some false
  else none

/-- An integer without a sign. -/
def magnitude? : List Char → Option Nat
  | '0' :: 'x' :: cs => Number.ofDigits? 16 cs
  | '0' :: 'o' :: cs => Number.ofDigits? 8 cs
  | '0' :: 'b' :: cs => Number.ofDigits? 2 cs
  | ['0'] => some 0
  | '0' :: _ => none
  | cs => Number.ofDigits? 10 cs

/-- An integer without a minus sign. -/
def unsigned? (s : String) : Option Nat :=
  match s.toList with
  | '+' :: cs => magnitude? cs
  | cs => magnitude? cs

/-- An integer with a minus sign. -/
def negative? (s : String) : Option Int :=
  match s.toList with
  | '-' :: cs => (magnitude? cs).map fun n => -(n : Int)
  | _ => none

/-- An integer. -/
def integer? (s : String) : Option Int :=
  match unsigned? s with
  | some n => some n
  | none => negative? s

/-- The double that a decimal number stands for, if it is finite. -/
def finite? (cs : List Char) : Option Float :=
  (Number.Decimal.read? cs).bind fun d =>
    if d.magnitudeBits < Number.infinityBits then some d.toFloat else none

/-- The double of a text. -/
def float? (s : String) : Option Float :=
  if s = ".nan" ∨ s = ".NaN" ∨ s = ".NAN" then some Number.notANumber
  else if s = "-.inf" ∨ s = "-.Inf" ∨ s = "-.INF" then some (Number.infinity true)
  else if s ∈ [".inf", ".Inf", ".INF", "+.inf", "+.Inf", "+.INF"] then
    some (Number.infinity false)
  else
    match s.toList with
    | '+' :: '+' :: _ => none
    | '+' :: '-' :: _ => none
    | cs => finite? cs

/-- Whether a text is written in digits alone but has a zero in front of them. -/
def isPadded (s : String) : Bool :=
  match (Number.Decimal.splitSign s.toList).2 with
  | '0' :: c :: cs => (c :: cs).all Char.isDigit
  | _ => false

/-! ### Scalars on their own -/

/-- What a plain scalar stands for where nothing tells what is asked for. -/
inductive Meaning
  | absent
  | bool (b : Bool)
  /-- A number without a minus sign that fits 64 bits. -/
  | natural (n : Nat)
  /-- A number with a minus sign that fits 64 bits. -/
  | negative (n : Int)
  /-- An integer that fits 128 bits, but not 64. -/
  | wide
  | double (x : Float)
  | text

/-- The double that a text stands for if it is no integer, or else the text itself. -/
def doubleOrText (s : String) : Meaning :=
  if isPadded s then .text
  else
    match float? s with
    | some x => .double x
    | none => .text

/-- What a plain scalar stands for on its own. -/
def meaning (s : String) : Meaning :=
  if isAbsent s then .absent
  else
    match bool? s, unsigned? s, negative? s with
    | some b, _, _ => .bool b
    | none, some n, _ =>
      if n < wordBound then .natural n
      else if n < wordBound * wordBound then .wide
      else doubleOrText s
    | none, none, some n =>
      if IsSigned n then .negative n
      else if -(wordBound * wordBound : Nat) ≤ 2 * n then .wide
      else doubleOrText s
    | none, none, none => doubleOrText s

end TensorDispatch.Yaml.Value
