import TensorDispatch.Profile
import TensorDispatch.Queue.Snapshot

/-!
# Sessions

A **session** is a queue together with what surrounds it: the readiness of its tasks, the
profiles that record their starts, and a clock. A **call** is one thing its callers may do, and
`Session.step` says what each call answers and which session it leaves. Calls are atomic, so a
run of a session is the fold of `step` over a list of calls (`Session.run`).
-/

namespace TensorDispatch

/-- A queue and its surroundings. -/
structure Session where
  queue : Queue
  readiness : Readiness := {}
  profiles : Profiles := []
  /-- The clock that moves only when told to. -/
  clock : Int := 0
  /-- A reading of the wall clock; when there is one, the queue goes by it. -/
  wallClock : Option Int := none
  /-- The tasks that have left the queue, the earliest first. -/
  released : Array Task := #[]

/-- What the callers of a dispatcher may do. -/
inductive Call
  /-- Submit a task. Its profile, if it names one, is there from now on. -/
  | submit (t : Task)
  /-- Take the task that may run next. -/
  | dispatch
  /-- Take the task with a key. -/
  | dispatchKey (key : Nat)
  /-- Take tasks until there is none to take, and report each finished at once if asked to. -/
  | drain (finishing : Bool)
  /-- Report a task that has left the queue, counted from the first one. -/
  | finish (index : Nat)
  /-- Report bytes of work. -/
  | finishBytes (len : Nat)
  /-- Raise a readiness flag. -/
  | raise (flag : String)
  /-- Turn a profile on or off. -/
  | setProfiling (context : String) (on : Bool)
  /-- Look up recorded starts. -/
  | starts (context : String) (key : Nat) (stage : Stage)
  /-- Record a contribution to a key in the table. -/
  | contribute (key : Nat)
  /-- Look up the contributions to a key in the table. -/
  | contributions (key : Nat)
  /-- Move the clock. -/
  | advanceMicros (us : Int)
  /-- Move the clock. -/
  | advanceMillis (ms : Int)
  /-- Look up the counters of the queue. -/
  | counters
  deriving DecidableEq, Repr

/-- What a call is answered with. -/
inductive Answer
  | done
  | task (t : Option Task)
  | drained (items : List (Except Fault Task))
  | noSuchTask
  | noTable
  | switched (on : Bool)
  | starts (records : List StartRecord)
  | count (n : Nat)
  | reading (clock : Int)
  | counters (stage : Stage) (strategy : Strategy) (pending : Nat) (stats : Stats)

namespace Session

/-- The instant by which the queue goes. -/
def now (s : Session) : Int := s.wallClock.getD s.clock

/-- Hands over a task that was taken out of the queue: credit, counters, and its start in the
profile. -/
def handOver (t : Task) (s : Session) : Outcome Session (Option Task) :=
  match s.queue.release t with
  | ⟨.ok t, queue⟩ =>
    .answered (some t) { s with
      queue
      profiles := s.profiles.recordStart t queue.stage s.now
      released := s.released.push t }
  | ⟨.error fault, queue⟩ => .refused fault { s with queue }

/-- Takes the task that may run next. A queue that consults the table acknowledges the key of
the task that leaves, and no other. -/
def dispatch (s : Session) : Outcome Session (Option Task) :=
  match s.queue.choose s.readiness s.now with
  | ⟨.ok none, queue⟩ => .answered none { s with queue }
  | ⟨.ok (some t), queue⟩ =>
    let readiness := if queue.gated then s.readiness.acknowledge t.key else s.readiness
    handOver t { s with queue, readiness }
  | ⟨.error fault, queue⟩ => .refused fault { s with queue }

/-- Takes the task with a key. -/
def dispatchKey (key : Nat) (s : Session) : Outcome Session (Option Task) :=
  match s.queue.chooseKey s.readiness key with
  | ⟨.ok none, queue⟩ => .answered none { s with queue }
  | ⟨.ok (some t), queue⟩ => handOver t { s with queue }
  | ⟨.error fault, queue⟩ => .refused fault { s with queue }

/-- A task enters the queue; its profile starts switched on. -/
def submit (t : Task) (s : Session) : Outcome Session Unit :=
  let profiles :=
    match t.context with
    | none => s.profiles
    | some context => s.profiles.ensure context true
  let s := { s with profiles }
  (s.queue.submit s.now t).within fun queue => { s with queue }

/-- `len` bytes of work are reported finished. -/
def finish (len : Nat) (s : Session) : Outcome Session Unit :=
  (s.queue.finish len).within fun queue => { s with queue }

/-- Takes at most `fuel` tasks. A fault ends the drain; a refused report does not. -/
def drainUpTo (finishing : Bool) : Nat → Session → List (Except Fault Task) × Session
  | 0, s => ([], s)
  | fuel + 1, s =>
    match s.dispatch with
    | ⟨.ok none, s⟩ => ([], s)
    | ⟨.error fault, s⟩ => ([.error fault], s)
    | ⟨.ok (some t), s⟩ =>
      if finishing then
        match s.finish t.len with
        | ⟨.ok (), s⟩ =>
          let (items, s) := drainUpTo finishing fuel s
          (.ok t :: items, s)
        | ⟨.error fault, s⟩ =>
          let (items, s) := drainUpTo finishing fuel s
          (.ok t :: .error fault :: items, s)
      else
        let (items, s) := drainUpTo finishing fuel s
        (.ok t :: items, s)

/-- Takes tasks until there is none to take. Each taken task leaves the queue, so one dispatch
more than the queue holds tasks is the last. -/
def drain (finishing : Bool) (s : Session) : List (Except Fault Task) × Session :=
  drainUpTo finishing (s.queue.size + 1) s

/-- The answer to a call, and the session after it. -/
def step (call : Call) (s : Session) : Outcome Session Answer :=
  match call with
  | .submit t => (s.submit t).map fun _ => .done
  | .dispatch => s.dispatch.map .task
  | .dispatchKey key => (s.dispatchKey key).map .task
  | .drain finishing =>
    let (items, s) := s.drain finishing
    .answered (.drained items) s
  | .finish index =>
    match s.released[index]? with
    | none => .answered .noSuchTask s
    | some t => (s.finish t.len).map fun _ => .done
  | .finishBytes len => (s.finish len).map fun _ => .done
  | .raise flag =>
    .answered (.switched true) { s with readiness := s.readiness.raise flag }
  | .setProfiling context on =>
    let profiles := (s.profiles.ensure context false).update context ({ · with enabled := on })
    .answered (.switched (profiles.named context).enabled) { s with profiles }
  | .starts context key stage =>
    let profiles := s.profiles.ensure context false
    .answered (.starts ((profiles.named context).starts key stage)) { s with profiles }
  | .contribute key =>
    match s.readiness.table with
    | none => .answered .noTable s
    | some table =>
      let table := table.add key
      .answered (.count (table.count key))
        { s with readiness := { s.readiness with table := some table } }
  | .contributions key =>
    match s.readiness.table with
    | none => .answered .noTable s
    | some table => .answered (.count (table.count key)) s
  | .advanceMicros us =>
    let clock := TensorDispatch.advanceMicros us s.clock
    .answered (.reading clock) { s with clock }
  | .advanceMillis ms =>
    match TensorDispatch.advanceMillis ms s.clock with
    | .ok clock => .answered (.reading clock) { s with clock }
    | .error fault => .refused fault s
  | .counters =>
    .answered (.counters s.queue.stage s.queue.strategy s.queue.pendingSize s.queue.stats) s

/-- The results of a list of calls, each with the session after it. -/
def run (s : Session) : List Call → List (Outcome Session Answer)
  | [] => []
  | call :: calls =>
    let outcome := s.step call
    outcome :: run outcome.state calls

end Session

end TensorDispatch
