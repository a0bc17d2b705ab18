import TensorDispatch.Config
import TensorDispatch.Credit
import TensorDispatch.Readiness
import TensorDispatch.Replay
import TensorDispatch.Throttle

/-!
# Dispatchers

A **queue** decides which pending task of one pipeline stage may run next. Gradients of the push
stage follow the strategy of the queue; every other task is scanned for, in store order. A task
is **admitted** when it is ready, its bytes are covered by credit, and the table of the stage, if
the queue consults it, has its key ready.

* `Queue.create` — the queue of a stage, from a configuration and a role;
* `Queue.submit`, `Queue.finish` — a task enters, and a dispatched one is reported finished;
* `Queue.choose`, `Queue.chooseKey` — the task that leaves next, and the task with a key;
* `Queue.release` — the bookkeeping for a task that leaves.

Every operation is an `Outcome` on the queue: a refused call keeps what it had already changed.
-/

namespace TensorDispatch

/-- Where the gradients of a queue wait, and what releases them. -/
inductive Policy
  | plain
  | replay (replay : Replay)
  | throttle (throttle : Throttle)
  deriving DecidableEq, Repr

namespace Policy

/-- The number of gradients that wait, the staged ones aside. -/
def pendingSize : Policy → Nat
  | plain => 0
  | replay r => r.pending.size
  | throttle w => w.pending.size

/-- The number of staged partitions. -/
def stagedSize : Policy → Nat
  | replay r => r.staged.length
  | _ => 0

end Policy

/-- The dispatcher of one stage. -/
structure Queue where
  stage : Stage
  /-- The strategy in force. -/
  strategy : Strategy
  /-- Whether the table of the stage is consulted. -/
  gated : Bool
  /-- The tasks that are scanned for. -/
  scanned : Pending
  credit : Credit
  policy : Policy
  stats : Stats := {}
  deriving DecidableEq, Repr

namespace Queue

/-! ### Construction -/

/-- Only the push stage follows the configured strategy. -/
def strategyAt (stage : Stage) (config : QueueConfig) : Strategy :=
  if stage = .push then config.strategy else .plain

/-- The credit account of a stage: metered where the stage uses credit and the multiplier is
not zero. -/
def creditAt (stage : Stage) (config : QueueConfig) (role : Role) : Credit :=
  .ofBudget <|
    if stage.usesCredit role && decide (0 < config.effectiveMultiplier) then some config.budget
    else none

/-- The policy of a strategy, from what the strategy follows. -/
def policyOf (strategy : Strategy) (config : QueueConfig) : Except ConfigError Policy :=
  match strategy with
  | .plain => .ok .plain
  | .tokenReplay => do
    let schedule ← config.requireSchedule strategy
    return .replay (.start schedule config.door)
  | .timeWindow => do
    let window ← config.requireWindow strategy
    return .throttle (.start window config.beginName)

/-- The queue of a stage under a role. Metering by credit orders the scanned tasks. -/
def create (stage : Stage) (config : QueueConfig) (role : Role) : Except ConfigError Queue := do
  config.validate
  let strategy := strategyAt stage config
  let credit := creditAt stage config role
  let policy ← policyOf strategy config
  return {
    stage, strategy, credit, policy
    gated := stage.gatesOnTable role
    scanned := { ordered := credit.isMetered } }

/-! ### Sizes -/

/-- The number of tasks that wait, the staged ones aside. -/
def pendingSize (q : Queue) : Nat := q.scanned.size + q.policy.pendingSize

/-- The number of tasks inside the queue. -/
def size (q : Queue) : Nat := q.pendingSize + q.policy.stagedSize

/-! ### Submission and completion -/

/-- Puts a task where it waits: a gradient with the policy, any other task with the scanned
ones. -/
def place (now : Int) (t : Task) (q : Queue) : Outcome Queue Unit :=
  let scan : Outcome Queue Unit := .answered () { q with scanned := q.scanned.insert t }
  if t.isGradient then
    match q.policy with
    | .plain => scan
    | .replay r => .answered () { q with policy := .replay (r.submit t) }
    | .throttle w => (w.submit now t).within fun w => { q with policy := .throttle w }
  else scan

/-- A task enters the queue. A task without a name is refused before anything is counted. -/
def submit (now : Int) (t : Task) (q : Queue) : Outcome Queue Unit :=
  if t.name.isEmpty then .refused (.unnamedTask t.key) q
  else
    match place now t { q with stats := q.stats.countSubmitted } with
    | ⟨.ok (), q⟩ => .answered () { q with stats := q.stats.notePending q.pendingSize }
    | ⟨.error fault, q⟩ => .refused fault q

/-- Returns the credit of finished work. -/
def returnCredit (len : Nat) (q : Queue) : Outcome Queue Unit :=
  match q.credit.giveBack len with
  | .ok credit => .answered () { q with credit }
  | .error fault => .refused fault q

/-- `len` bytes of dispatched work are finished. Behind the boundary of a replayed schedule a
completion opens the door, and else it returns credit. -/
def finish (len : Nat) (q : Queue) : Outcome Queue Unit :=
  let q := { q with stats := q.stats.countFinished }
  match q.policy with
  | .replay r =>
    if r.boundarySeen then
      match r.grantPermit with
      | .ok permits => .answered () { q with policy := .replay { r with permits } }
      | .error fault => .refused fault q
    else q.returnCredit len
  | _ => q.returnCredit len

/-! ### Choice -/

/-- Whether a task may leave the queue now. -/
def admits (readiness : Readiness) (q : Queue) (t : Task) : Bool :=
  readiness.isReady t && q.credit.admits t.len && (!q.gated || readiness.isKeyReady t.key)

/-- The gradient that the policy lets go. -/
def chooseGradient (readiness : Readiness) (now : Int) (q : Queue) :
    Outcome Queue (Option Task) :=
  match q.policy with
  | .plain => .answered none q
  | .replay r =>
    let (t, r, stats) := r.poll (q.admits readiness) q.stats
    .answered t { q with policy := .replay r, stats }
  | .throttle w =>
    (w.poll (q.admits readiness) now q.stats).within fun (w, stats) =>
      { q with policy := .throttle w, stats }

/-- The first admitted task among the scanned ones. -/
def chooseScanned (readiness : Readiness) (q : Queue) : Option Task × Queue :=
  match q.scanned.takeFirst? (q.admits readiness) with
  | none => (none, q)
  | some (t, scanned) => (some t, { q with scanned })

/-- Takes out the task that leaves next: the gradient of the policy, or else the first admitted
scanned task. -/
def choose (readiness : Readiness) (now : Int) (q : Queue) : Outcome Queue (Option Task) :=
  match q.chooseGradient readiness now with
  | ⟨.ok none, q⟩ =>
    let (t, q) := q.chooseScanned readiness
    .answered t q
  | other => other

/-- Takes out the first scanned task with a key. Where credit or a policy decides what runs
next, the call is refused; a task that is not ready is refused after it has been taken out. -/
def chooseKey (readiness : Readiness) (key : Nat) (q : Queue) : Outcome Queue (Option Task) :=
  if q.credit.isMetered then .refused (.keyedOnCredit q.stage) q
  else if q.policy ≠ .plain then .refused (.keyedOnStrategy q.stage q.strategy) q
  else
    match q.scanned.takeFirst? fun t => t.key == key with
    | none => .answered none q
    | some (t, scanned) =>
      let q := { q with scanned }
      if readiness.isReady t then .answered (some t) q
      else .refused (.keyedUnready t.name) q

/-- The bookkeeping for a task that leaves the queue. -/
def release (t : Task) (q : Queue) : Outcome Queue Task :=
  match q.credit.acquire t.len with
  | .ok credit =>
    .answered t.released { q with credit, stats := q.stats.countDispatched }
  | .error fault => .refused fault q

end Queue

end TensorDispatch
