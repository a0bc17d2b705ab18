import TensorDispatch.Queue

/-!
# Snapshots

A **snapshot** is what a dispatcher shows of itself at one moment. A queue without token replay
shows an open door and an empty staging buffer.
-/

namespace TensorDispatch

/-- What a dispatcher shows of itself. -/
structure Snapshot where
  stage : Stage
  strategy : Strategy
  pending : Nat
  staged : Nat
  creditsEnabled : Bool
  creditsAvailable : Nat
  creditsInFlight : Nat
  boundarySeen : Bool
  barrierOpen : Bool
  stats : Stats
  deriving DecidableEq, Repr

/-- Nothing waits anywhere in the dispatcher. -/
def Snapshot.isIdle (s : Snapshot) : Bool := s.pending == 0 && s.staged == 0

namespace Policy

/-- Whether the boundary of the current pass has been reached. -/
def boundarySeen : Policy → Bool
  | replay r => r.boundarySeen
  | _ => false

/-- Whether the door lets a tensor through. -/
def doorIsOpen : Policy → Bool
  | replay r => r.isOpen
  | _ => true

end Policy

/-- The snapshot of a queue. -/
def Queue.snapshot (q : Queue) : Snapshot where
  stage := q.stage
  strategy := q.strategy
  pending := q.pendingSize
  staged := q.policy.stagedSize
  creditsEnabled := q.credit.isMetered
  creditsAvailable := q.credit.available
  creditsInFlight := q.credit.inFlight
  boundarySeen := q.policy.boundarySeen
  barrierOpen := q.policy.doorIsOpen
  stats := q.stats

/-- A queue shows itself idle exactly when it holds no task. -/
theorem Queue.isIdle_snapshot_iff {q : Queue} : q.snapshot.isIdle = true ↔ q.size = 0 := by
  simp [Snapshot.isIdle, Queue.snapshot, Queue.size]

end TensorDispatch
