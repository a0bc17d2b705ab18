import TensorDispatch.Config.Schedule
import TensorDispatch.Config.WindowPlan
import TensorDispatch.Fault

/-!
# Configuration

A **queue configuration** fixes the credit, the strategy and what the strategy follows. The
credit budget is the partition bound times a multiplier: one more than the size of the
reduction group, unless a multiplier is given; a multiplier of zero turns metering off.

`QueueConfig.validate` accepts a configuration when its budget fits 64 bits and its strategy
finds what it needs.
-/

namespace TensorDispatch

/-- The configuration of one dispatcher. -/
structure QueueConfig where
  /-- Upper bound on the length of a partition in bytes. -/
  partitionBound : Nat := 4096000
  /-- Devices in the local reduction group. -/
  groupSize : Nat := 8
  /-- Partitions of credit in flight; zero turns metering off. -/
  creditMultiplier : Option Nat := none
  /-- How push-stage gradients are released. -/
  strategy : Strategy := .plain
  /-- A part of the name of the first tensor of an iteration. -/
  beginName : Option String := none
  /-- What token replay follows. -/
  schedule : Option Schedule := none
  /-- What the time-window strategy follows. -/
  window : Option WindowPlan := none
  /-- How the door of token replay opens again. -/
  door : Door := .boundary
  deriving Repr

/-- A configuration file: a queue configuration and the role of the process. -/
structure Config where
  queue : QueueConfig := {}
  role : Role := {}
  deriving Repr

namespace QueueConfig

/-- The multiplier in force; the sum behind it stops at the largest 64-bit number. -/
def effectiveMultiplier (c : QueueConfig) : Nat :=
  c.creditMultiplier.getD (min (c.groupSize + 1) (wordBound - 1))

/-- The credit budget in bytes, if it fits 64 bits. -/
def checkedBudget (c : QueueConfig) : Option Nat :=
  let budget := c.partitionBound * c.effectiveMultiplier
  if budget < wordBound then some budget else none

/-- The credit budget in bytes, cut off at the largest 64-bit number. -/
def budget (c : QueueConfig) : Nat :=
  c.checkedBudget.getD (wordBound - 1)

/-- The schedule, for a strategy that follows one. -/
def requireSchedule (strategy : Strategy) (c : QueueConfig) : Except ConfigError Schedule :=
  match c.schedule with
  | some schedule => .ok schedule
  | none => .error (.missingSchedule strategy)

/-- The window plan, for a strategy that follows one. -/
def requireWindow (strategy : Strategy) (c : QueueConfig) : Except ConfigError WindowPlan :=
  match c.window with
  | some window => .ok window
  | none => .error (.missingWindow strategy)

/-- A usable configuration has a budget that fits, and a strategy that finds what it follows. -/
def validate (c : QueueConfig) : Except ConfigError Unit :=
  if c.checkedBudget.isNone then
    .error (.creditBudgetOverflow c.partitionBound c.effectiveMultiplier)
  else
    match c.strategy with
    | .plain => .ok ()
    | .tokenReplay => c.requireSchedule c.strategy >>= Schedule.validate
    | .timeWindow => c.requireWindow c.strategy >>= WindowPlan.validate

end QueueConfig

end TensorDispatch
