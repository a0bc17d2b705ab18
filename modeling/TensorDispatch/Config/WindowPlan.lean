import TensorDispatch.Config.Error

/-!
# Window plans

A **window plan** is a profiled backward pass, cut into windows, with the bytes that may leave
in each of them. The timings were taken at a reference batch size and scale linearly with the
batch.
-/

namespace TensorDispatch

/-- The batch size at which the timings of a plan are taken. -/
def referenceBatchSize : Nat := 64

/-- A profiled timeline and the bytes admitted in each of its windows. -/
structure WindowPlan where
  /-- Length of each window in milliseconds, at the reference batch size. -/
  backwardMillis : List Float
  /-- Batch size of the training run. -/
  batchSize : Nat := referenceBatchSize
  /-- A further factor on every length. -/
  scale : Float := 1.0
  /-- Bytes admitted in one window. -/
  budget : Nat := 4 * 4096000
  deriving Repr

/-- The natural number nearest to the size of a float, halves going up. What has no room in 64 bits
goes to the largest number that has, and what is not a number to zero. -/
def roundMagnitude (x : Float) : Nat :=
  let whole := x.abs.toUInt64
  let rest := x.abs - whole.toFloat
  whole.toNat + if 0.5 ≤ rest ∧ rest < 1.0 then 1 else 0

/-- The nearest integer, halves going away from zero; what lies outside the signed 64-bit range
goes to its nearer end, and what is not a number to zero. -/
-- sealed, so that no unification opens the bits of a float
@[irreducible] def roundSigned (x : Float) : Int :=
  if x < 0.0 then max (-0x8000000000000000) (-(roundMagnitude x : Int))
  else min (roundMagnitude x) 0x7fffffffffffffff

namespace WindowPlan

/-- The factor from the reference batch size to the batch of this plan. -/
def factor (w : WindowPlan) : Float :=
  Float.ofNat w.batchSize / Float.ofNat referenceBatchSize * w.scale

/-- The window lengths in microseconds. -/
def lengths (w : WindowPlan) : List Int :=
  w.backwardMillis.map fun ms => roundSigned (ms * w.factor * 1000.0)

/-- A usable plan has windows and a batch. -/
def validate (w : WindowPlan) : Except ConfigError Unit :=
  if w.backwardMillis.isEmpty then .error .emptyWindow
  else if w.batchSize = 0 then .error .invalidBatchSize
  else .ok ()

theorem validate_eq_ok_iff {w : WindowPlan} :
    w.validate = .ok () ↔ w.backwardMillis ≠ [] ∧ w.batchSize ≠ 0 := by
  by_cases h : w.backwardMillis = [] <;> by_cases hb : w.batchSize = 0 <;>
    simp [validate, h, hb]

end WindowPlan

end TensorDispatch
