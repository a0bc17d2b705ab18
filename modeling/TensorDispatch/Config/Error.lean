import TensorDispatch.Strategy

/-!
# Errors of a configuration

What makes a configuration unusable, and how it is worded.
-/

namespace TensorDispatch

/-- Why a queue configuration is rejected. -/
inductive ConfigError
  | emptySchedule
  | boundaryNotScheduled (boundary : Int)
  | zeroTensorCount
  | tensorCountTooSmall (total tokens : Nat)
  | missingSchedule (strategy : Strategy)
  | missingWindow (strategy : Strategy)
  | emptyWindow
  | invalidBatchSize
  | creditBudgetOverflow (partitionBound multiplier : Nat)
  deriving DecidableEq, Repr

/-- The wording of a configuration error. -/
def ConfigError.message : ConfigError → String
  | emptySchedule => "Schedule table has no tokens"
  | boundaryNotScheduled boundary =>
      s!"Boundary priority {boundary} does not appear in the schedule tokens"
  | zeroTensorCount => "Schedule total tensor count must be greater than zero"
  | tensorCountTooSmall total tokens =>
      s!"Schedule total tensor count {total} is smaller than the {tokens} scheduled tokens"
  | missingSchedule strategy => s!"Strategy {strategy.name} requires a schedule table"
  | missingWindow strategy => s!"Strategy {strategy.name} requires a window schedule"
  | emptyWindow => "Window schedule has no backward timings"
  | invalidBatchSize => "Batch size must be greater than zero"
  | creditBudgetOverflow partitionBound multiplier =>
      s!"Credit budget of {multiplier} partitions of {partitionBound} bytes overflows"

end TensorDispatch
