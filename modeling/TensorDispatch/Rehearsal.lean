import TensorDispatch.Random.Shuffle
import TensorDispatch.Rehearsal.Report
import TensorDispatch.Rehearsal.Tensors
import TensorDispatch.Session

/-!
# Rehearsals

A **rehearsal** runs one dispatcher against synthetic tensors the way a pipeline worker would.
In every iteration all partitions are submitted in a seeded random order; then the worker polls,
keeps a number of tasks in flight and reports the oldest finished. Time only moves while the
worker has nothing to do, so throttle windows pass in a reproducible way.

The poll loop (`Worker.work`) ends: each turn emits a task, or shortens what is in flight, or
uses up idle polls (`Worker.turn_decreases`), and too many idle polls in a row are a **stall**.
-/

namespace TensorDispatch.Rehearsal

/-- What a rehearsal can be asked to do. -/
structure Options where
  stage : Stage := .push
  iterations : Nat := 1
  /-- Partitions of each tensor. -/
  partitions : Nat := 1
  /-- Bytes of each partition. -/
  len : Nat := 1024
  /-- Tasks kept in flight before the oldest is finished. -/
  depth : Nat := 2
  seed : Nat := 0
  /-- The number of tensors where the configuration has no schedule. -/
  tensors : Nat := 8
  deriving DecidableEq, Repr

/-- Why a rehearsal ends without a report. -/
inductive Failure
  | config (error : ConfigError)
  | fault (fault : Fault)
  /-- The dispatcher lets nothing go any more. -/
  | stalled (iteration pending : Nat)
  deriving DecidableEq, Repr

/-- The wording of a failure. -/
def Failure.message : Failure → String
  | config error => error.message
  | fault f => f.message
  | stalled iteration pending =>
      s!"dispatcher stalled in iteration {iteration} with {pending} tasks pending"

/-- Simulated microseconds of an idle poll. -/
def tickMicros : Int := 100

/-- Idle polls in a row that are tolerated. -/
def idleLimit : Nat := 100000

/-! ### The worker -/

/-- A pipeline worker in the middle of an iteration. -/
structure Worker where
  session : Session
  /-- Tasks taken and not yet reported finished, the oldest first. -/
  inFlight : List Task := []
  /-- Tasks taken in this iteration. -/
  emitted : Array Task := #[]
  /-- Idle polls since a task was taken. -/
  idle : Nat := 0

/-- Why a worker gives up. -/
inductive Halt
  | fault (fault : Fault)
  | stalled (pending : Nat)
  deriving DecidableEq, Repr

/-- The failure of the iteration in which a worker gives up. -/
def Halt.inIteration (iteration : Nat) : Halt → Failure
  | fault f => .fault f
  | stalled pending => .stalled iteration pending

/-- The state behind an answered call. -/
def settle {α : Type} (o : Outcome Session α) : Except Halt Session :=
  match o.result with
  | .ok _ => .ok o.state
  | .error fault => .error (.fault fault)

namespace Worker

/-- Reports the oldest tasks in flight until at most `depth` are left. -/
def finishBeyond (depth : Nat) (s : Session) (inFlight : List Task) :
    Except Halt (Session × List Task) :=
  match inFlight with
  | [] => .ok (s, [])
  | t :: rest =>
    if depth < inFlight.length then do
      let s ← settle (s.finish t.len)
      finishBeyond depth s rest
    else .ok (s, inFlight)

/-- One poll and what it leads to: a task that leaves is taken in flight; if none does, the
oldest task in flight is reported; if there is none, time moves on. -/
def turn (depth : Nat) (w : Worker) : Except Halt Worker :=
  match w.session.dispatch with
  | ⟨.error fault, _⟩ => .error (.fault fault)
  | ⟨.ok (some t), session⟩ => do
    let (session, inFlight) ← finishBeyond depth session (w.inFlight ++ [t])
    return { session, inFlight, emitted := w.emitted.push t, idle := 0 }
  | ⟨.ok none, session⟩ =>
    match w.inFlight with
    | t :: rest => do
      let session ← settle (session.finish t.len)
      return { w with session, inFlight := rest }
    | [] =>
      if idleLimit < w.idle + 1 then .error (.stalled session.queue.pendingSize)
      else
        .ok { w with
          session := { session with clock := advanceMicros tickMicros session.clock }
          idle := w.idle + 1 }

/-- What a worker with `expected` tasks to take still has before it. -/
def ahead (expected : Nat) (w : Worker) : Nat × Nat × Nat :=
  (expected - w.emitted.size, w.inFlight.length, idleLimit + 1 - w.idle)

theorem turn_decreases {expected depth : Nat} {w w' : Worker}
    (h : w.emitted.size < expected) (ht : w.turn depth = .ok w') :
    Prod.Lex (· < ·) (Prod.Lex (· < ·) (· < ·)) (w'.ahead expected) (w.ahead expected) := by
  unfold turn at ht
  split at ht
  · cases ht
  · rename_i t session _
    cases hf : finishBeyond depth session (w.inFlight ++ [t]) with
    | error e => rw [hf] at ht; cases ht
    | ok p =>
      rw [hf] at ht
      cases ht
      exact .left _ _ (by simp only [Array.size_push]; omega)
  · rename_i session _
    split at ht
    · rename_i t rest hw
      cases hs : settle (session.finish t.len) with
      | error e => rw [hs] at ht; cases ht
      | ok s =>
        rw [hs] at ht
        cases ht
        exact .right _ (.left _ _ (by simp [hw]))
    · split at ht
      · cases ht
      · rename_i hw hi
        cases ht
        refine .right _ ?_
        simp only [hw]
        exact .right _ (by simp only [idleLimit] at hi ⊢; omega)

/-- Takes turns until `expected` tasks have been taken. -/
def work (expected depth : Nat) (w : Worker) : Except Halt Worker :=
  if h : w.emitted.size < expected then
    match ht : w.turn depth with
    | .error halt => .error halt
    | .ok w' =>
      have := turn_decreases h ht
      work expected depth w'
  else .ok w
termination_by w.ahead expected
decreasing_by exact this

end Worker

/-! ### Iterations -/

/-- Submits tasks one after the other. -/
def submitAll (s : Session) (tasks : List Task) : Except Halt Session :=
  tasks.foldlM (fun s t => settle (s.submit t)) s

/-- One iteration: every task is submitted, taken and reported. -/
def runIteration (depth : Nat) (tasks : List Task) (s : Session) :
    Except Halt (Session × List Task) := do
  let session ← submitAll s tasks
  let w ← Worker.work tasks.length depth { session := session }
  let (session, _) ← Worker.finishBeyond 0 w.session w.inFlight
  return (session, w.emitted.toList)

/-- The emissions of the tasks taken in an iteration. -/
def emissionsOf (iteration : Nat) (tasks : List Task) : List Emission :=
  tasks.zipIdx.map fun (t, seq) =>
    { iteration, seq, name := t.name, key := t.key, priority := t.priority
      partition := partitionOfKey t.key }

/-- Runs `remaining` iterations over the same tasks, one generator shuffling them all. -/
def runIterations (depth : Nat) (tasks : List Task) :
    (remaining iteration : Nat) → Random.Generator → Session →
      Except Failure (List Emission × Session)
  | 0, _, _, s => .ok ([], s)
  | remaining + 1, iteration, g, s =>
    let (shuffled, g) := Random.shuffle tasks g
    match runIteration depth shuffled s with
    | .error halt => .error (halt.inIteration iteration)
    | .ok (s, taken) => do
      let (later, s) ← runIterations depth tasks remaining (iteration + 1) g s
      return (emissionsOf iteration taken ++ later, s)

/-- Rehearses the dispatcher of a configuration. -/
def run (config : Config) (options : Options) : Except Failure Report := do
  let queue ← (Queue.create options.stage config.queue config.role).mapError .config
  let priorities ← (tensorPriorities config.queue options.tensors).mapError .fault
  let tasks ←
    if options.iterations = 0 then pure []
    else
      (checkedTasks priorities options.partitions options.len config.queue.beginName).mapError
        .fault
  let (emissions, session) ←
    runIterations (max 1 options.depth) tasks options.iterations 0
      (.ofSeed options.seed) { queue := queue }
  return { emissions, state := session.queue.snapshot }

end TensorDispatch.Rehearsal
