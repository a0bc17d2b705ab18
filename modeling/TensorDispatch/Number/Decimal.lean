import TensorDispatch.Number.Digits
import TensorDispatch.Number.Nearest
import TensorDispatch.Text.Quoted

/-!
# Decimal numbers

A **decimal** is a sign, a natural number and a power of ten. Written, it has digits with at
most one point among them and may end in an exponent. `Decimal.toFloat` is the nearest double.
-/

namespace TensorDispatch.Number

/-- The number `± digits * 10 ^ exponent`. -/
structure Decimal where
  negative : Bool := false
  digits : Nat
  exponent : Int := 0
  deriving DecidableEq, Repr

namespace Decimal

/-- The bits of the nearest double, the sign aside. A number of `10 ^ 310` or more is past every
double, and one below `10 ^ -330` nearest to zero, so only moderate powers of ten are taken. -/
def magnitudeBits (d : Decimal) : Nat :=
  if d.digits = 0 then 0
  else
    let width := (Nat.toDigits 10 d.digits).length
    if 310 < width + d.exponent then infinityBits
    else if width + d.exponent < -330 then 0
    else if d.exponent < 0 then nearestBits d.digits (Nat.pow 10 d.exponent.natAbs)
    else nearestBits (d.digits * Nat.pow 10 d.exponent.natAbs) 1

/-- The nearest double; the sign of zero is kept. -/
def toFloat (d : Decimal) : Float :=
  Float.ofBits (UInt64.ofNat (d.magnitudeBits + if d.negative then signBit else 0))

/-! ### Reading -/

/-- Splits off a sign. -/
def splitSign : List Char → Bool × List Char
  | '-' :: cs => (true, cs)
  | '+' :: cs => (false, cs)
  | cs => (false, cs)

/-- An exponent: its mark, an optional sign and digits; nothing stands for zero. -/
def exponent? : List Char → Option Int
  | [] => some 0
  | c :: cs =>
    if c = 'e' ∨ c = 'E' then
      let (negative, digits) := splitSign cs
      (ofDigits? 10 digits).map fun n => if negative then -(n : Int) else n
    else none

/-- An unsigned decimal number: digits with at most one point among them, and an exponent. -/
def unsigned? (cs : List Char) : Option Decimal := do
  let whole := cs.takeWhile Char.isDigit
  let rest := cs.dropWhile Char.isDigit
  let (places, rest) :=
    match rest with
    | '.' :: rest => (rest.takeWhile Char.isDigit, rest.dropWhile Char.isDigit)
    | rest => ([], rest)
  let digits ← ofDigits? 10 (whole ++ places)
  let exponent ← exponent? rest
  return { digits, exponent := exponent - places.length }

/-- A decimal number with an optional sign. -/
def read? (cs : List Char) : Option Decimal :=
  let (negative, cs) := splitSign cs
  (unsigned? cs).map ({ · with negative })

end Decimal

/-- The infinite double of a sign. -/
def infinity (negative : Bool) : Float :=
  Float.ofBits (UInt64.ofNat (infinityBits + if negative then signBit else 0))

/-- The positive quiet double that is no number. -/
def notANumber : Float := Float.ofBits (UInt64.ofNat (infinityBits + fullSignificand / 2))

/-- A double from its text: a decimal number, or the words for infinity and for no number in any
letter case, with an optional sign. -/
def readFloat? (s : String) : Option Float :=
  let (negative, cs) := Decimal.splitSign s.toList
  let word := String.ofList (cs.map Char.toLower)
  if word = "inf" ∨ word = "infinity" then some (infinity negative)
  else if word = "nan" then some notANumber
  else (Decimal.read? s.toList).map Decimal.toFloat

/-- The bits of a double in sixteen hexadecimal digits; whatever is no number reads `nan`. -/
def hexBits (x : Float) : String :=
  if x.isNaN then "nan" else Text.padHex 16 x.toBits.toNat

end TensorDispatch.Number
