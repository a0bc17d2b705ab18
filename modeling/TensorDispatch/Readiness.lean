import TensorDispatch.Task

/-!
# Readiness

A dispatcher knows two kinds of readiness. A **flag** belongs to single tasks and stays raised
once it is raised. A **counting table** belongs to a stage: it holds the contributions that have
arrived for each key since the key was last acknowledged, and a key is ready while their number
is exactly the expected one.
-/

namespace TensorDispatch

/-- The contributions of a stage that have arrived and are not yet acknowledged. -/
structure CountingTable where
  /-- The number of contributions that makes a key ready. -/
  expected : Nat
  /-- The keys contributed to, one entry a contribution, the latest first. -/
  arrivals : List Nat := []
  deriving DecidableEq, Repr

namespace CountingTable

/-- The unacknowledged contributions to a key. -/
def count (key : Nat) (t : CountingTable) : Nat := t.arrivals.count key

/-- Whether exactly the expected contributions to a key have arrived. -/
def isReady (key : Nat) (t : CountingTable) : Bool := t.count key == t.expected

/-- Records one contribution to a key. -/
def add (key : Nat) (t : CountingTable) : CountingTable :=
  { t with arrivals := key :: t.arrivals }

/-- Acknowledges a key: its contributions are forgotten. -/
def clear (key : Nat) (t : CountingTable) : CountingTable :=
  { t with arrivals := t.arrivals.filter (· != key) }

theorem count_add (key other : Nat) (t : CountingTable) :
    (t.add key).count other = t.count other + if key = other then 1 else 0 := by
  simp [add, count, List.count_cons]

theorem count_clear (key other : Nat) (t : CountingTable) :
    (t.clear key).count other = if other = key then 0 else t.count other := by
  by_cases h : other = key
  · simp [clear, count, h, List.count_eq_zero]
  · simp [clear, count, h, List.count_filter]

end CountingTable

/-- What a dispatcher can learn about the readiness of its tasks. -/
structure Readiness where
  /-- The names of the raised flags. -/
  raised : List String := []
  /-- The table of the stage, if there is one. -/
  table : Option CountingTable := none
  deriving DecidableEq, Repr

namespace Readiness

/-- Raises a flag. -/
def raise (flag : String) (r : Readiness) : Readiness :=
  { r with raised := flag :: r.raised }

/-- Whether the task waits for no flag, or for a raised one. -/
def isReady (t : Task) (r : Readiness) : Bool :=
  match t.flag with
  | none => true
  | some flag => r.raised.contains flag

/-- Whether the table, if there is one, has the key ready. -/
def isKeyReady (key : Nat) (r : Readiness) : Bool :=
  match r.table with
  | none => true
  | some table => table.isReady key

/-- Acknowledges a key in the table, if there is one. -/
def acknowledge (key : Nat) (r : Readiness) : Readiness :=
  { r with table := r.table.map (·.clear key) }

end Readiness

end TensorDispatch
