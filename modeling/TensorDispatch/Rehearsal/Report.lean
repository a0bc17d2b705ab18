import TensorDispatch.Queue.Snapshot

/-!
# Reports

A rehearsal reports every task that left the dispatcher, an **emission** each, and the
dispatcher at the end.
-/

namespace TensorDispatch.Rehearsal

/-- One task leaving the dispatcher. -/
structure Emission where
  iteration : Nat
  /-- The place among the emissions of the iteration. -/
  seq : Nat
  name : String
  key : Nat
  priority : Int
  partition : Nat
  deriving DecidableEq, Repr

/-- What a rehearsal reports. -/
structure Report where
  emissions : List Emission
  state : Snapshot
  deriving DecidableEq, Repr

/-- The list with each entry that repeats the one before it left out. -/
def collapse : List Int → List Int
  | [] => []
  | p :: ps =>
    match collapse ps with
    | [] => [p]
    | q :: qs => if p = q then q :: qs else p :: q :: qs

/-- The tensors of one iteration in the order of emission: the priorities, with neighbours that
belong to one tensor told once. -/
def Report.tensorOrder (iteration : Nat) (r : Report) : List Int :=
  collapse ((r.emissions.filter (·.iteration == iteration)).map (·.priority))

end TensorDispatch.Rehearsal
