import TensorDispatch.Task

/-!
# Pending tasks

A **pending store** is the list of the waiting tasks in the order in which they are looked at.
An ordered store keeps descending priority, then ascending key, then arrival; any other store
keeps arrival alone. Each operation is one equation about that list:

* `Pending.insert` puts a task behind every task that does not have to yield to it;
* `Pending.takeFirst?` removes the first task that passes a test;
* `Pending.takeGroup` removes the leading partitions of one tensor.
-/

namespace TensorDispatch

/-- The waiting tasks, in the order in which they are looked at. -/
structure Pending where
  ordered : Bool
  tasks : List Task := []
  deriving DecidableEq, Repr

namespace Pending

/-- The number of waiting tasks. -/
def size (s : Pending) : Nat := s.tasks.length

/-- The list with `t` put in front of the first task it goes before. -/
def place (t : Task) : List Task → List Task
  | [] => [t]
  | u :: us => if t.Before u then t :: u :: us else u :: place t us

/-- A new task goes behind its equals in an ordered store, and to the end of any other. -/
def insert (t : Task) (s : Pending) : Pending :=
  { s with tasks := if s.ordered then place t s.tasks else s.tasks ++ [t] }

/-- The first task that passes the test, and the store without it. -/
def takeFirst? (p : Task → Bool) (s : Pending) : Option (Task × Pending) :=
  (s.tasks.find? p).map fun t => (t, { s with tasks := s.tasks.eraseP p })

/-- Whether a tensor of this priority is waiting. -/
def hasPriority (priority : Int) (s : Pending) : Bool :=
  s.tasks.any fun t => t.priority == priority

/-- The waiting tasks of one priority, in order. -/
def ofPriority (priority : Int) (s : Pending) : List Task :=
  s.tasks.filter fun t => t.priority == priority

/-- The list without its first `n` tasks of one priority. -/
def dropOfPriority (priority : Int) : Nat → List Task → List Task
  | _, [] => []
  | 0, ts => ts
  | n + 1, t :: ts =>
    if t.priority == priority then dropOfPriority priority n ts
    else t :: dropOfPriority priority (n + 1) ts

/-- How many tasks make up the next group of this priority: the first of them tells the number
of partitions of the tensor, which is at least one. -/
def groupSize (priority : Int) (s : Pending) : Nat :=
  match s.ofPriority priority with
  | [] => 0
  | t :: _ => max 1 t.partitions

/-- The leading partitions of the tensor of this priority, and the store without them. -/
def takeGroup (priority : Int) (s : Pending) : List Task × Pending :=
  let n := s.groupSize priority
  ((s.ofPriority priority).take n, { s with tasks := dropOfPriority priority n s.tasks })

/-! ### The list of tasks after each operation -/

theorem length_place (t : Task) (ts : List Task) : (place t ts).length = ts.length + 1 := by
  induction ts with
  | nil => rfl
  | cons u us ih => by_cases h : t.Before u <;> simp [place, h, ih]

theorem mem_place_iff {t u : Task} {ts : List Task} : u ∈ place t ts ↔ u = t ∨ u ∈ ts := by
  induction ts with
  | nil => simp [place]
  | cons v vs ih =>
    by_cases h : t.Before v
    · simp [place, h]
    · simp only [place, h, if_false, List.mem_cons, ih]
      grind

@[simp] theorem size_insert (t : Task) (s : Pending) : (s.insert t).size = s.size + 1 := by
  by_cases h : s.ordered <;> simp [insert, size, h, length_place]

theorem hasPriority_iff {priority : Int} {s : Pending} :
    s.hasPriority priority = true ↔ ∃ t ∈ s.tasks, t.priority = priority := by
  simp [hasPriority]

end Pending

end TensorDispatch
