/-!
# Statistics of a dispatcher

What a dispatcher counts. Counters only grow, and none of them decides what runs next.
-/

namespace TensorDispatch

/-- The counters of one dispatcher. -/
structure Stats where
  submitted : Nat := 0
  dispatched : Nat := 0
  finished : Nat := 0
  /-- Polls refused behind a closed door. -/
  barrierBlocks : Nat := 0
  /-- Polls that found their window expired. -/
  windowRolls : Nat := 0
  /-- Completed passes through the schedule. -/
  iterations : Nat := 0
  /-- The largest number of pending tasks so far. -/
  peakPending : Nat := 0
  deriving DecidableEq, Repr

namespace Stats

/-- Counts a submission. -/
def countSubmitted (s : Stats) : Stats := { s with submitted := s.submitted + 1 }

/-- Counts a dispatched task. -/
def countDispatched (s : Stats) : Stats := { s with dispatched := s.dispatched + 1 }

/-- Counts a reported completion. -/
def countFinished (s : Stats) : Stats := { s with finished := s.finished + 1 }

/-- Counts a poll refused behind a closed door. -/
def countBlock (s : Stats) : Stats := { s with barrierBlocks := s.barrierBlocks + 1 }

/-- Counts an expired window. -/
def countRoll (s : Stats) : Stats := { s with windowRolls := s.windowRolls + 1 }

/-- Counts a pass through the schedule. -/
def countIteration (s : Stats) : Stats := { s with iterations := s.iterations + 1 }

/-- Notes the number of pending tasks. -/
def notePending (n : Nat) (s : Stats) : Stats := { s with peakPending := max s.peakPending n }

end Stats

end TensorDispatch
