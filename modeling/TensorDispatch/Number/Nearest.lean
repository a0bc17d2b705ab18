/-!
# The nearest double

A finite double is `s * 2 ^ q` with a significand `s < 2 ^ 53` and an exponent `q ≥ -1074`, and
its bits, read as a number, are `(q + 1074) * 2 ^ 52 + s` when `q` is as small as possible. So a
significand that is rounded up to `2 ^ 53` carries into the exponent by itself, and the first
number past the largest finite double is infinity.

`nearestBits` rounds a fraction of natural numbers to the nearest double, ties going to the even
significand.
-/

namespace TensorDispatch.Number

/-- The bits of infinity. -/
def infinityBits : Nat := 0x7ff0000000000000

/-- The smallest significand of a double that has all its bits. -/
def fullSignificand : Nat := 0x10000000000000

/-- The bit that tells the sign of a double. -/
def signBit : Nat := 0x8000000000000000

/-- The numerator and denominator of a fraction divided by `2 ^ q`. -/
def scaleDown (num den : Nat) (q : Int) : Nat × Nat :=
  if q < 0 then (num <<< q.natAbs, den) else (num, den <<< q.natAbs)

/-- The quotient rounded to the nearest integer, ties going to the even one. -/
def roundDiv (num den : Nat) : Nat :=
  let s := num / den
  let r := num % den
  if den < 2 * r ∨ (2 * r = den ∧ s % 2 = 1) then s + 1 else s

/-- The exponent of the doubles next to a fraction: the smallest one whose significands reach
it. -/
def exponentOf (num den : Nat) : Int :=
  let q := max (-1074) ((num.log2 : Int) - den.log2 - 53)
  let (n, d) := scaleDown num den q
  if n / d < 2 * fullSignificand then q else q + 1

/-- The bits of the double nearest to a fraction. -/
def nearestBits (num den : Nat) : Nat :=
  if num = 0 then 0
  else
    let q := exponentOf num den
    let (n, d) := scaleDown num den q
    min infinityBits ((q + 1074).toNat * fullSignificand + roundDiv n d)

/-- Twice the distance from the quotient to its rounding is at most the denominator. -/
theorem roundDiv_near {num den : Nat} (h : 0 < den) :
    2 * (roundDiv num den * den) ≤ 2 * num + den ∧
      2 * num ≤ 2 * (roundDiv num den * den) + den := by
  have hd : den * (num / den) + num % den = num := Nat.div_add_mod num den
  have hr : num % den < den := Nat.mod_lt num h
  have hc : (num / den) * den = den * (num / den) := Nat.mul_comm ..
  unfold roundDiv
  simp only
  split
  · rw [Nat.add_mul, Nat.one_mul]
    omega
  · omega

end TensorDispatch.Number
