import TensorDispatch.Text.Occurs

/-!
# Tasks

A **task** moves one partition of one tensor through one stage. All partitions of a tensor
share a priority; the key tells the partitions apart. What a task waits for and where its start
is recorded are named, not held: a task carries the name of its readiness flag and the name of
its profiling context, and both live beside the dispatcher.
-/

namespace TensorDispatch

/-- The kind of data a task carries. -/
inductive Payload
  | gradient
  | control
  deriving DecidableEq, Repr

namespace Payload

/-- The spelling of a payload in reports. -/
def name : Payload → String
  | gradient => "gradient"
  | control => "control"

/-- A tensor whose name says so carries a gradient; all other data is control data. -/
def ofTensorName (s : String) : Payload :=
  if Text.occurs "gradient" s then gradient else control

end Payload

/-- A partition of a tensor on its way through one stage. -/
structure Task where
  name : String
  /-- Tells the partitions apart. -/
  key : Nat
  /-- Shared by the partitions of a tensor; the larger goes first. -/
  priority : Int
  /-- Length in bytes. -/
  len : Nat
  /-- Number of partitions of the tensor. -/
  partitions : Nat := 1
  payload : Payload := .ofTensorName name
  /-- The readiness flag to wait for; without one the task is ready at once. -/
  flag : Option String := none
  /-- The profiling context that records its start. -/
  context : Option String := none
  deriving DecidableEq, Repr

namespace Task

/-- Whether the task carries a gradient. -/
def isGradient (t : Task) : Bool := t.payload == .gradient

/-- The task with nothing left to wait for. -/
def released (t : Task) : Task := { t with flag := none }

/-- The dispatch order of an ordered store: descending priority, then ascending key. -/
def Before (t u : Task) : Prop :=
  u.priority < t.priority ∨ t.priority = u.priority ∧ t.key < u.key

instance (t u : Task) : Decidable (t.Before u) := inferInstanceAs (Decidable (_ ∨ _))

end Task

end TensorDispatch
