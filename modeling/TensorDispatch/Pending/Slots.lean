import TensorDispatch.Number.Width
import TensorDispatch.Pending

/-!
# Pending tasks by slots

A pending store is a list that is looked through. It can be kept as a map instead, from **slots** to
tasks: a slot has the priority and the key of its task and the number of its insertion, or the
number alone where the store is not ordered, and the map is gone through in the order of its slots.
The tasks of one priority are found from a lower bound on, without a look at the others.

* `Slots` — the map, with the tasks in the order of their slots;
* `Slots.insert`, `Slots.remove`, `Slots.popFirst`, `Slots.takeFirst?`, `Slots.takeGroup` — what is
  done to it;
* `Slots.range` — the lookup from a lower bound on.
-/

namespace TensorDispatch

/-! ### Slots -/

/-- The place of a task in a map of tasks. -/
structure Slot where
  priority : Int
  key : Nat
  /-- The number of the insertion. -/
  number : Nat
  deriving DecidableEq, Repr

/-- The order of slots: descending priority, then ascending key, then ascending number. -/
def Slot.Precedes (a b : Slot) : Prop :=
  b.priority < a.priority ∨ a.priority = b.priority ∧
    (a.key < b.key ∨ a.key = b.key ∧ a.number < b.number)

instance (a b : Slot) : Decidable (a.Precedes b) := inferInstanceAs (Decidable (_ ∨ _))

/-- A map from slots to tasks, in the order of the slots. -/
structure Slots where
  ordered : Bool
  /-- The number of the next insertion. -/
  next : Nat := 0
  entries : List (Slot × Task) := []
  deriving DecidableEq, Repr

namespace Slots

/-! ### Operations -/

/-- The tasks of the map, as a pending store. -/
def toPending (s : Slots) : Pending := { ordered := s.ordered, tasks := s.entries.map Prod.snd }

/-- The slot of a task with this number. -/
def slotOf (ordered : Bool) (t : Task) (number : Nat) : Slot :=
  if ordered then { priority := t.priority, key := t.key, number }
  else { priority := 0, key := 0, number }

/-- The map with a task in a slot. A task that has the slot already is replaced. -/
def put (slot : Slot) (t : Task) : List (Slot × Task) → List (Slot × Task)
  | [] => [(slot, t)]
  | e :: es =>
    if slot.Precedes e.1 then (slot, t) :: e :: es
    else if slot = e.1 then (slot, t) :: es
    else e :: put slot t es

/-- A new task has the slot of the next number. Behind the last number, they start again. -/
def insert (t : Task) (s : Slots) : Slots :=
  { s with
    next := (s.next + 1) % wordBound
    entries := put (slotOf s.ordered t s.next) t s.entries }

/-- Takes the task out of a slot. -/
def remove (slot : Slot) (s : Slots) : Option Task × Slots :=
  (s.entries.lookup slot, { s with entries := s.entries.filter fun e => e.1 ≠ slot })

/-- Takes the task out of the first slot. -/
def popFirst (s : Slots) : Option Task × Slots :=
  (s.entries.head?.map Prod.snd, { s with entries := s.entries.tail })

/-- The first task that passes the test is looked for, and taken out of its slot. -/
def takeFirst? (p : Task → Bool) (s : Slots) : Option (Task × Slots) :=
  (s.entries.find? fun e => p e.2).bind fun e =>
    (s.remove e.1).1.map fun t => (t, (s.remove e.1).2)

/-- The slots from the least possible one of this priority on, as far as they are of it. -/
def range (priority : Int) (s : Slots) : List (Slot × Task) :=
  (s.entries.dropWhile fun e => e.1.Precedes { priority, key := 0, number := 0 }).takeWhile
    fun e => e.1.priority == priority

/-- Whether a tensor of this priority is waiting. -/
def hasPriority (priority : Int) (s : Slots) : Bool := !(s.range priority).isEmpty

/-- Takes the tasks out of some slots, one after the other. -/
def removeAll : List Slot → Slots → List Task × Slots
  | [], s => ([], s)
  | slot :: slots, s =>
    let (t, s) := s.remove slot
    let (ts, s) := removeAll slots s
    (t.toList ++ ts, s)

/-- The slots of the next group of this priority. The first of them tells how many there are. -/
def groupOf (priority : Int) (s : Slots) : List (Slot × Task) :=
  match s.range priority with
  | [] => []
  | e :: es => (e :: es).take (max 1 e.2.partitions)

/-- Takes out the leading partitions of the tensor of this priority. -/
def takeGroup (priority : Int) (s : Slots) : List Task × Slots :=
  s.removeAll ((s.groupOf priority).map Prod.fst)

end Slots

end TensorDispatch
