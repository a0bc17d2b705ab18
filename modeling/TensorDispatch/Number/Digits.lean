/-!
# Digits

Reading a number from its digits in some radix: at least one digit, and nothing else.
-/

namespace TensorDispatch.Number

/-- The value of a digit; the letters stand for ten and above, in either case. -/
def digitValue? (c : Char) : Option Nat :=
  if '0' ≤ c ∧ c ≤ '9' then some (c.toNat - '0'.toNat)
  else if 'a' ≤ c ∧ c ≤ 'z' then some (c.toNat - 'a'.toNat + 10)
  else if 'A' ≤ c ∧ c ≤ 'Z' then some (c.toNat - 'A'.toNat + 10)
  else none

/-- The value of a digit of the radix. -/
def digitIn? (radix : Nat) (c : Char) : Option Nat :=
  (digitValue? c).filter (· < radix)

/-- Continues a number by further digits. -/
def continueDigits? (radix : Nat) (value : Nat) : List Char → Option Nat
  | [] => some value
  | c :: cs => do
    let d ← digitIn? radix c
    continueDigits? radix (value * radix + d) cs

/-- The number with these digits. -/
def ofDigits? (radix : Nat) (cs : List Char) : Option Nat :=
  if cs.isEmpty then none else continueDigits? radix 0 cs

/-- An unsigned decimal number below the bound; it may have a plus sign. -/
def readBelow? (bound : Nat) (s : String) : Option Nat :=
  let digits :=
    match s.toList with
    | '+' :: cs => cs
    | cs => cs
  (ofDigits? 10 digits).filter (· < bound)

end TensorDispatch.Number
