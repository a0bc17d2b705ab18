import TensorDispatch.Config.WindowPlan
import TensorDispatch.Fault
import TensorDispatch.Pending
import TensorDispatch.Queue.Stats

/-!
# Window throttle

The **throttle** meters gradients over a profiled timeline. The timeline starts when the first
tensor of an iteration is submitted. While a window runs, at most the budget of bytes leaves;
the first poll after its deadline enters the next window with a full budget and releases
nothing. Once every window has passed, everything goes through until the next iteration starts.
-/

namespace TensorDispatch

/-- The gradients of a push stage that is metered per window. -/
structure Throttle where
  /-- Window lengths in microseconds. -/
  lengths : List Int
  /-- Bytes admitted in one window. -/
  fullBudget : Nat
  /-- A part of the name of the first tensor of an iteration. -/
  headName : Option String
  /-- The gradients that wait. -/
  pending : Pending
  /-- Bytes left in the current window. -/
  budget : Nat
  /-- The current window; past the last one, nothing is metered. -/
  index : Nat
  /-- The last instant of the current window. -/
  deadline : Int
  deriving DecidableEq, Repr

namespace Throttle

/-- The throttle before its first iteration: no window runs. -/
def start (plan : WindowPlan) (headName : Option String) : Throttle :=
  { lengths := plan.lengths
    fullBudget := plan.budget
    headName
    pending := { ordered := true }
    budget := plan.budget
    index := plan.lengths.length
    deadline := 0 }

/-- Whether a tensor of this name starts an iteration. -/
def isHead (name : String) (w : Throttle) : Bool :=
  match w.headName with
  | none => false
  | some part => !part.isEmpty && Text.occurs part name

/-- Whether every window has passed. -/
def isExhausted (w : Throttle) : Bool := decide (w.lengths.length ≤ w.index)

/-- Starts the timeline at the given instant. The first window is entered before its deadline
is known to fit the clock. -/
def restart (now : Int) (w : Throttle) : Outcome Throttle Unit :=
  let w := { w with index := 0, budget := w.fullBudget }
  match addSigned now (w.lengths.headD 0) with
  | .ok deadline => .answered () { w with deadline }
  | .error fault => .refused fault w

/-- Adds a gradient to the pending ones; the head of an iteration restarts the timeline first. -/
def submit (now : Int) (t : Task) (w : Throttle) : Outcome Throttle Unit :=
  if w.isHead t.name then
    match w.restart now with
    | ⟨.ok (), w⟩ => .answered () { w with pending := w.pending.insert t }
    | ⟨.error fault, w⟩ => .refused fault w
  else .answered () { w with pending := w.pending.insert t }

/-- Whether the current window has passed. -/
def IsExpired (now : Int) (w : Throttle) : Prop :=
  w.deadline < now ∧ w.index < w.lengths.length

instance (now : Int) (w : Throttle) : Decidable (w.IsExpired now) :=
  inferInstanceAs (Decidable (_ ∧ _))

/-- Enters the next window with a full budget; behind the last one the deadline stays. -/
def roll (w : Throttle) : Outcome Throttle Unit :=
  let w := { w with budget := w.fullBudget, index := w.index + 1 }
  match w.lengths[w.index]? with
  | none => .answered () w
  | some length =>
    match addSigned w.deadline length with
    | .ok deadline => .answered () { w with deadline }
    | .error fault => .refused fault w

/-- Whether the current window has room for `len` bytes. -/
def hasRoom (len : Nat) (w : Throttle) : Bool := w.isExhausted || decide (len ≤ w.budget)

/-- The first pending gradient leaves if the window has room for it and it is admitted. -/
def releaseFirst (admits : Task → Bool) (w : Throttle) : Option Task × Throttle :=
  match w.pending.tasks with
  | [] => (none, w)
  | t :: ts =>
    if w.hasRoom t.len && admits t then
      (some t, { w with
        pending := { w.pending with tasks := ts }
        budget := w.budget - t.len })
    else (none, w)

/-- One poll: nothing pending asks for nothing, an expired window rolls and releases nothing,
and else the first gradient may leave. -/
def poll (admits : Task → Bool) (now : Int) (w : Throttle) (stats : Stats) :
    Outcome (Throttle × Stats) (Option Task) :=
  if w.pending.tasks.isEmpty then .answered none (w, stats)
  else if w.IsExpired now then
    match w.roll with
    | ⟨.ok (), w⟩ => .answered none (w, stats.countRoll)
    | ⟨.error fault, w⟩ => .refused fault (w, stats)
  else
    let (t, w) := w.releaseFirst admits
    .answered t (w, stats)

end Throttle

end TensorDispatch
