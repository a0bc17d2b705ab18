/-!
# Widths of numbers

The ranges of unsigned 32-bit and 64-bit numbers and of signed 64-bit numbers, and the signed
number with given lowest bits.
-/

namespace TensorDispatch

/-- One past the largest unsigned 32-bit number. -/
def halfWordBound : Nat := 0x100000000

/-- One past the largest unsigned 64-bit number. -/
def wordBound : Nat := 0x10000000000000000

/-- Membership of the signed 64-bit range. -/
def IsSigned (n : Int) : Prop := -0x8000000000000000 ≤ n ∧ n < 0x8000000000000000

instance (n : Int) : Decidable (IsSigned n) := inferInstanceAs (Decidable (_ ∧ _))

/-- The signed 64-bit number with the same lowest 64 bits. -/
def wrapSigned (n : Int) : Int := n.bmod wordBound

theorem wrapSigned_of_isSigned {n : Int} (h : IsSigned n) : wrapSigned n = n := by
  obtain ⟨h₁, h₂⟩ := h
  exact Int.bmod_eq_of_le_mul_two (by simp only [wordBound]; omega)
    (by simp only [wordBound]; omega)

theorem isSigned_wrapSigned (n : Int) : IsSigned (wrapSigned n) := by
  have h₁ := @Int.le_bmod n wordBound (by decide)
  have h₂ := @Int.bmod_lt n wordBound (by decide)
  simp only [wordBound] at h₁ h₂
  exact ⟨by simp only [wrapSigned, wordBound]; omega, by simp only [wrapSigned, wordBound]; omega⟩

end TensorDispatch
