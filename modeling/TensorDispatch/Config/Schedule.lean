import TensorDispatch.Config.Error

/-!
# Schedules and doors

A **schedule** is the order in which the tensors of one training iteration are to be sent: each
token names the priority of a tensor, and the **boundary** is the priority of the tensor that
ends the iteration. Behind the boundary a **door** closes, and its policy says how completions
reported downstream open it again.
-/

namespace TensorDispatch

/-- When the iteration door opens again behind the boundary tensor. -/
inductive Door
  /-- One completion lets one more tensor through. -/
  | boundary
  /-- Each completion banks a permit, up to the limit. -/
  | counted (limit : Nat)
  deriving DecidableEq, Repr

/-- The limit of a counted door that names none. -/
def Door.defaultLimit : Nat := 11

/-- The order of the tensors of one iteration. -/
structure Schedule where
  /-- Expected priorities, consumed front to back. -/
  tokens : List Int
  /-- Priority of the tensor that ends the iteration. -/
  boundary : Int
  /-- Tensors dispatched in one iteration, the unscheduled ones included. -/
  totalTensors : Nat
  deriving DecidableEq, Repr

namespace Schedule

/-- The schedule of just the given tokens. -/
def ofTokens (tokens : List Int) (boundary : Int) : Schedule :=
  ⟨tokens, boundary, tokens.length⟩

/-- A usable schedule has tokens, counts at least them, and contains its boundary. -/
def validate (s : Schedule) : Except ConfigError Unit :=
  if s.tokens.isEmpty then .error .emptySchedule
  else if s.totalTensors = 0 then .error .zeroTensorCount
  else if s.totalTensors < s.tokens.length then
    .error (.tensorCountTooSmall s.totalTensors s.tokens.length)
  else if s.boundary ∈ s.tokens then .ok ()
  else .error (.boundaryNotScheduled s.boundary)

theorem validate_eq_ok_iff {s : Schedule} :
    s.validate = .ok () ↔
      s.tokens ≠ [] ∧ s.tokens.length ≤ s.totalTensors ∧ s.boundary ∈ s.tokens := by
  unfold validate
  by_cases h : s.tokens = []
  · simp [h]
  · have hpos : 0 < s.tokens.length := List.length_pos_iff.mpr h
    by_cases ht : s.totalTensors < s.tokens.length
    · have hle : ¬ s.tokens.length ≤ s.totalTensors := by omega
      by_cases hz : s.totalTensors = 0 <;> simp [h, hz, ht, hle]
    · have hz : s.totalTensors ≠ 0 := by omega
      have hle : s.tokens.length ≤ s.totalTensors := by omega
      by_cases hb : s.boundary ∈ s.tokens <;> simp [h, hz, ht, hle, hb]

end Schedule

end TensorDispatch
