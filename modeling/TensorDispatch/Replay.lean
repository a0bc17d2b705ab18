import TensorDispatch.Config.Schedule
import TensorDispatch.Fault
import TensorDispatch.Pending
import TensorDispatch.Queue.Stats

/-!
# Token replay

The backward pass finishes tensors in an order that keeps the network waiting. **Token replay**
sends them in the order of a schedule instead. Each token names the tensor to be sent next, and
all partitions of that tensor move together into the **staging buffer**, from which they leave
strictly in order. A tensor the schedule never names fills in while the next scheduled one is
not pending.

The boundary tensor closes the **door** behind itself. From then on each further tensor needs a
permit, and only completions reported downstream grant one, so the next iteration cannot overtake
the end of this one. When every token has been consumed, enough tensors have been staged and the
door is open, the replay **rolls over** to the next pass.
-/

namespace TensorDispatch

/-- The gradients of a push stage that follows a schedule. -/
structure Replay where
  schedule : Schedule
  door : Door
  /-- The gradients that are not staged yet. -/
  pending : Pending
  /-- The tokens of this pass that are not consumed yet. -/
  tokens : List Int
  /-- Partitions on their way out, in order. -/
  staged : List Task := []
  /-- The boundary tensor of this pass has been reached. -/
  boundarySeen : Bool := false
  /-- Tensors the door still lets through. -/
  permits : Nat := 1
  /-- Tensors staged in this pass. -/
  stagedTensors : Nat := 0
  deriving DecidableEq, Repr

/-- What came of the attempt to stage a tensor. -/
inductive Staging
  /-- A tensor has moved into the staging buffer. -/
  | moved
  /-- No tensor may come next yet. -/
  | nothingDue
  /-- The next tensor waits behind a closed door. -/
  | heldBack
  deriving DecidableEq, Repr

namespace Replay

/-- The replay at the start of its first pass. -/
def start (schedule : Schedule) (door : Door) : Replay :=
  { schedule, door, pending := { ordered := true }, tokens := schedule.tokens }

/-- Whether the door lets a tensor through. -/
def isOpen (r : Replay) : Bool := decide (0 < r.permits)

/-- Adds a gradient to the pending ones. -/
def submit (t : Task) (r : Replay) : Replay := { r with pending := r.pending.insert t }

/-! ### Passes -/

/-- Whether this pass is complete and the next one may begin. -/
def RollsOver (r : Replay) : Prop :=
  r.schedule.totalTensors ≤ r.stagedTensors ∧ r.tokens = [] ∧ r.staged = [] ∧ 0 < r.permits

instance (r : Replay) : Decidable r.RollsOver := inferInstanceAs (Decidable (_ ∧ _))

/-- The next pass: all tokens again, no boundary and no staged tensors. Permits carry over. -/
def nextPass (r : Replay) : Replay :=
  { r with tokens := r.schedule.tokens, boundarySeen := false, stagedTensors := 0 }

/-! ### Staging -/

/-- The highest pending priority that the schedule never names. -/
def unscheduled? (r : Replay) : Option Int :=
  (r.pending.tasks.find? fun t => !r.schedule.tokens.contains t.priority).map (·.priority)

/-- The tensor that comes next, and whether the schedule names it: the one of the front token
if it is pending, else the highest one outside the schedule. -/
def candidate? (r : Replay) : Option (Int × Bool) :=
  match r.tokens with
  | [] => r.unscheduled?.map (·, false)
  | token :: _ =>
    if r.pending.hasPriority token then some (token, true) else r.unscheduled?.map (·, false)

/-- The permits left once a tensor has passed the door. -/
def permitsAfterTensor (r : Replay) : Nat :=
  match r.door with
  | .boundary => 0
  | .counted _ => r.permits - 1

/-- Moves the tensor of this priority into the staging buffer; from the boundary on, it uses a
permit. -/
def stage (priority : Int) (scheduled : Bool) (r : Replay) : Replay :=
  let (group, pending) := r.pending.takeGroup priority
  { r with
    pending
    staged := r.staged ++ group
    tokens := if scheduled then r.tokens.tail else r.tokens
    stagedTensors := r.stagedTensors + 1
    permits := if r.boundarySeen then r.permitsAfterTensor else r.permits }

/-- Stages the tensor that comes next, unless it has to wait behind the door. -/
def stageNext (r : Replay) : Staging × Replay :=
  match r.candidate? with
  | none => (.nothingDue, r)
  | some (priority, scheduled) =>
    let r := { r with
      boundarySeen := r.boundarySeen || (scheduled && priority == r.schedule.boundary) }
    if r.boundarySeen && !r.isOpen then (.heldBack, r)
    else (.moved, r.stage priority scheduled)

/-! ### Polls and completions -/

/-- The front of the staging buffer leaves if it is admitted. -/
def releaseStaged (admits : Task → Bool) (r : Replay) : Option Task × Replay :=
  match r.staged with
  | [] => (none, r)
  | t :: ts => if admits t then (some t, { r with staged := ts }) else (none, r)

/-- Rolls over if this pass is complete. -/
def rollOver (r : Replay) (stats : Stats) : Replay × Stats :=
  if r.RollsOver then (r.nextPass, stats.countIteration) else (r, stats)

/-- One poll: a complete pass rolls over, an empty staging buffer is refilled, and the front of
the buffer leaves if it is admitted. -/
def poll (admits : Task → Bool) (r : Replay) (stats : Stats) : Option Task × Replay × Stats :=
  let (r, stats) := r.rollOver stats
  if r.staged.isEmpty then
    match r.stageNext with
    | (.nothingDue, r) => (none, r, stats)
    | (.heldBack, r) => (none, r, stats.countBlock)
    | (.moved, r) =>
      let (t, r) := r.releaseStaged admits
      (t, r, stats)
  else
    let (t, r) := r.releaseStaged admits
    (t, r, stats)

/-- The permits after one more completion. -/
def grantPermit (r : Replay) : Except Fault Nat :=
  match r.door with
  | .boundary => .ok 1
  | .counted limit =>
    if r.permits + 1 < halfWordBound then .ok (min (r.permits + 1) limit)
    else .error .sumOverflow

end Replay

end TensorDispatch
