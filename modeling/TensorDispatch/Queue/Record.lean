import TensorDispatch.Fault
import TensorDispatch.Json
import TensorDispatch.Queue.Snapshot

/-!
# Snapshots on record

A snapshot as a JSON record, and the snapshot of a record.
-/

namespace TensorDispatch

namespace Stats

/-- The fields of the record of counters. -/
def fieldNames : List String :=
  ["total_submitted", "total_dispatched", "total_finished", "barrier_blocks", "window_rolls",
    "iterations", "peak_pending"]

/-- The record of counters. -/
def toJson (s : Stats) : Json :=
  .object (fieldNames.zip [
    .integer s.submitted, .integer s.dispatched, .integer s.finished, .integer s.barrierBlocks,
    .integer s.windowRolls, .integer s.iterations, .integer s.peakPending])

/-- The counters of a record. -/
def ofJson? (value : Json) : Option Stats := do
  let values ← value.record? fieldNames
  match ← values.mapM (Json.nat? wordBound) with
  | [submitted, dispatched, finished, barrierBlocks, windowRolls, iterations, peakPending] =>
    some { submitted, dispatched, finished, barrierBlocks, windowRolls, iterations, peakPending }
  | _ => none

end Stats

namespace Snapshot

/-- The fields of the record of a snapshot. -/
def fieldNames : List String :=
  ["stage", "strategy", "pending", "staged", "credits_enabled", "credits_available",
    "credits_in_flight", "boundary_seen", "barrier_open", "stats"]

/-- The record of a snapshot. -/
def toJson (s : Snapshot) : Json :=
  .object (fieldNames.zip [
    .text s.stage.name, .text s.strategy.name, .integer s.pending, .integer s.staged,
    .bool s.creditsEnabled, .integer s.creditsAvailable, .integer s.creditsInFlight,
    .bool s.boundarySeen, .bool s.barrierOpen, s.stats.toJson])

/-- The snapshot of a record. -/
def ofJson? (value : Json) : Option Snapshot := do
  match ← value.record? fieldNames with
  | [stage, strategy, pending, staged, creditsEnabled, creditsAvailable, creditsInFlight,
      boundarySeen, barrierOpen, stats] =>
    return {
      stage := ← stage.word? >>= Stage.ofName?
      strategy := ← strategy.word? >>= Strategy.ofName?
      pending := ← pending.nat? wordBound
      staged := ← staged.nat? wordBound
      creditsEnabled := ← creditsEnabled.bool?
      creditsAvailable := ← creditsAvailable.nat? wordBound
      creditsInFlight := ← creditsInFlight.nat? wordBound
      boundarySeen := ← boundarySeen.bool?
      barrierOpen := ← barrierOpen.bool?
      stats := ← Stats.ofJson? stats }
  | _ => none

end Snapshot

end TensorDispatch
