import TensorDispatch.Queue.Record
import TensorDispatch.Rehearsal.Report
import TensorDispatch.Text.Paint

/-!
# Listings

A report as text: the emissions, one a line, under a heading for each iteration, and the
counters below. The same report can be written as a JSON record.
-/

namespace TensorDispatch.Rehearsal

open Text in
/-- The line of an emission. -/
def Emission.line (coloured : Bool) (e : Emission) : String :=
  "  " ++ paint coloured [.dim] (padLeft 4 (toString e.seq)) ++ " "
    ++ paint coloured [.yellow] e.name ++ s!" priority={e.priority} key={e.key}"

open Text in
/-- The heading of an iteration. -/
def heading (coloured : Bool) (iteration : Nat) : String :=
  paint coloured [.bold] s!"iteration {iteration}"

/-- The lines of emissions; a heading stands where the iteration changes. -/
def emissionLines (coloured : Bool) : Option Nat → List Emission → List String
  | _, [] => []
  | current, e :: es =>
    let line := e.line coloured
    let later := emissionLines coloured (some e.iteration) es
    if current = some e.iteration then line :: later
    else heading coloured e.iteration :: line :: later

open Text in
/-- The line of the counters. -/
def statsLine (coloured : Bool) (s : Snapshot) : String :=
  paint coloured [.cyan] "stats" ++ s!" stage={s.stage.name} dispatched={s.stats.dispatched}"
    ++ s!" barrier_blocks={s.stats.barrierBlocks} window_rolls={s.stats.windowRolls}"
    ++ s!" iterations={s.stats.iterations}"

/-- The lines of a report. -/
def Report.lines (coloured : Bool) (r : Report) : List String :=
  emissionLines coloured none r.emissions ++ [statsLine coloured r.state]

/-- The record of an emission. -/
def Emission.toJson (e : Emission) : Json :=
  .object [("iteration", .integer e.iteration), ("seq", .integer e.seq), ("name", .text e.name),
    ("key", .integer e.key), ("priority", .integer e.priority),
    ("partition", .integer e.partition)]

/-- The record of a report. -/
def Report.toJson (r : Report) : Json :=
  .object [("emissions", .array (r.emissions.map Emission.toJson)), ("state", r.state.toJson)]

end TensorDispatch.Rehearsal
