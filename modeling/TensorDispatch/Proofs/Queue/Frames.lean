import TensorDispatch.Proofs.History
import TensorDispatch.Proofs.Queue.Operations

/-!
# Frames

What an action on a session leaves alone.

* `Moment.setup_after`, `Session.setup_after` — what is fixed when a queue is created stays fixed;
* `Session.readiness_dispatch`, `Moment.table_after` — readiness changes when a task is handed over
  by a dispatch of a queue that consults its table, and when its surroundings change, and at no
  other time.
-/

namespace TensorDispatch

/-! ### What is fixed at the creation of a queue -/

namespace Queue

/-- What is fixed when a queue is created. -/
def setup (q : Queue) : Stage × Strategy × Bool × Bool :=
  (q.stage, q.strategy, q.gated, q.scanned.ordered)

/-- What a queue makes of the readiness when a task leaves it: the key of the task is acknowledged
if the queue consults the table. -/
def acknowledge (t : Task) (readiness : Readiness) (q : Queue) : Readiness :=
  if q.gated then readiness.acknowledge t.key else readiness

/-- What a queue makes of the readiness when these tasks leave it, one after the other. -/
def acknowledgeAll (ts : List Task) (readiness : Readiness) (q : Queue) : Readiness :=
  ts.foldl (fun readiness t => q.acknowledge t readiness) readiness

@[simp] theorem acknowledgeAll_nil (readiness : Readiness) (q : Queue) :
    q.acknowledgeAll [] readiness = readiness := rfl

@[simp] theorem acknowledgeAll_singleton (t : Task) (readiness : Readiness) (q : Queue) :
    q.acknowledgeAll [t] readiness = q.acknowledge t readiness := rfl

theorem setup_of_eq {q : Queue} {scanned : Pending} {credit : Credit} {policy : Policy}
    {stats : Stats} (h : scanned.ordered = q.scanned.ordered) :
    ({ q with scanned, credit, policy, stats } : Queue).setup = q.setup := by
  simp only [setup, h]

theorem setup_submit (now : Int) (t : Task) (q : Queue) :
    (q.submit now t).state.setup = q.setup := by
  have hplace : ∀ q' : Queue, (q'.place now t).state.setup = q'.setup := by
    intro q'
    simp only [place]
    split
    · split <;> rfl
    · rfl
  unfold submit
  split
  · rfl
  · have hsetup := hplace { q with stats := q.stats.countSubmitted }
    split
    · rename_i hresult
      rw [hresult] at hsetup
      exact hsetup
    · rename_i hresult
      rw [hresult] at hsetup
      exact hsetup

theorem setup_choose (readiness : Readiness) (now : Int) (q : Queue) :
    (q.choose readiness now).state.setup = q.setup := by
  obtain ⟨⟨policy, stats, hgradient, -⟩, -⟩ := q.chooseGradient_spec readiness now
  unfold choose
  rcases hchoose : q.chooseGradient readiness now with ⟨f | _ | t, q'⟩
  · rw [hchoose] at hgradient
    rw [show q' = _ from hgradient]
    rfl
  · rw [hchoose] at hgradient
    rw [show q' = _ from hgradient]
    simp only [chooseScanned]
    split
    · rfl
    · rename_i t scanned htake
      exact setup_of_eq (Pending.ordered_takeFirst? htake)
  · rw [hchoose] at hgradient
    rw [show q' = _ from hgradient]
    rfl

theorem setup_chooseKey (readiness : Readiness) (key : Nat) (q : Queue) :
    (q.chooseKey readiness key).state.setup = q.setup := by
  unfold chooseKey
  split
  · rfl
  · split
    · rfl
    · split
      · rfl
      · rename_i t scanned htake
        have hordered := Pending.ordered_takeFirst? htake
        dsimp only
        split
        · exact setup_of_eq hordered
        · exact setup_of_eq hordered

theorem setup_of_create {stage : Stage} {config : QueueConfig} {role : Role} {q : Queue}
    (h : create stage config role = .ok q) :
    q.setup = (stage, strategyAt stage config, stage.gatesOnTable role,
      (creditAt stage config role).isMetered) := by
  obtain ⟨-, -, heq⟩ := create_eq_ok h
  rw [heq]
  rfl

theorem gated_eq_of_setup {q q' : Queue} (h : q.setup = q'.setup) : q.gated = q'.gated :=
  congrArg (fun setup => setup.2.2.1) h

theorem ordered_eq_of_setup {q q' : Queue} (h : q.setup = q'.setup) :
    q.scanned.ordered = q'.scanned.ordered :=
  congrArg (fun setup => setup.2.2.2) h

end Queue

@[simp] theorem Session.setup_handOver (t : Task) (s : Session) :
    (handOver t s).state.queue.setup = s.queue.setup := by
  unfold handOver Queue.release
  cases s.queue.credit.acquire t.len <;> rfl

/-- No action changes what is fixed. -/
theorem Moment.setup_after (m : Moment) : m.after.queue.setup = m.before.queue.setup := by
  obtain ⟨s, a⟩ := m
  cases a with
  | submit t => exact s.queue.setup_submit s.now t
  | dispatch =>
    have hsetup := s.queue.setup_choose s.readiness s.now
    rw [after, outcome_dispatch, Session.dispatch]
    rcases hchoose : s.queue.choose s.readiness s.now with ⟨f | _ | t, q⟩
    · rw [hchoose] at hsetup
      exact hsetup
    · rw [hchoose] at hsetup
      exact hsetup
    · rw [hchoose] at hsetup
      rw [Session.setup_handOver]
      exact hsetup
  | dispatchKey key =>
    have hsetup := s.queue.setup_chooseKey s.readiness key
    rw [after, outcome_dispatchKey, Session.dispatchKey]
    rcases hchoose : s.queue.chooseKey s.readiness key with ⟨f | _ | t, q⟩
    · rw [hchoose] at hsetup
      exact hsetup
    · rw [hchoose] at hsetup
      exact hsetup
    · rw [hchoose] at hsetup
      rw [Session.setup_handOver]
      exact hsetup
  | finish len =>
    obtain ⟨credit, policy, hstate, -, -⟩ := s.queue.finish_spec len
    rw [queue_after_finish, hstate]
    rfl
  | change c => rw [queue_after_change]

theorem Session.setup_after (s : Session) (actions : List Action) :
    (s.after actions).queue.setup = s.queue.setup :=
  history_induction (I := fun _ s' => s'.queue.setup = s.queue.setup) rfl
    (fun _ m hbefore => m.setup_after.trans hbefore) actions

/-! ### Readiness -/

namespace Session

variable (s : Session)

@[simp] theorem readiness_handOver (t : Task) (s : Session) :
    (handOver t s).state.readiness = s.readiness := by
  unfold handOver
  split <;> rfl

/-- The task that leaves by a dispatch is acknowledged, and nothing else happens to readiness. -/
theorem readiness_dispatch :
    s.dispatch.state.readiness = s.queue.acknowledgeAll s.dispatch.taken s.readiness := by
  have hsetup := s.queue.setup_choose s.readiness s.now
  rcases s.dispatch_cases with
    ⟨f, q, -, hdispatch⟩ | ⟨q, -, hdispatch⟩ | ⟨t, q, credit, s', hchoose, -, -, hdispatch, -⟩
  · rw [hdispatch]
    rfl
  · rw [hdispatch]
    rfl
  · rw [hchoose] at hsetup
    have hgated : q.gated = s.queue.gated := Queue.gated_eq_of_setup hsetup
    have hstate : s.dispatch.state.readiness = s.queue.acknowledge t s.readiness := by
      simp only [dispatch, hchoose, Outcome.answered, readiness_handOver, Queue.acknowledge, hgated]
    rw [hstate, hdispatch]
    rfl

@[simp] theorem readiness_dispatchKey (key : Nat) :
    (s.dispatchKey key).state.readiness = s.readiness := by
  unfold dispatchKey
  split
  · rfl
  · rw [readiness_handOver]
  · rfl

end Session

/-! ### The clock -/

@[simp] theorem Session.now_handOver (t : Task) (s : Session) :
    (handOver t s).state.now = s.now := by
  unfold handOver
  split <;> rfl

/-- A dispatch does not move the clock. -/
theorem Session.now_dispatch (s : Session) : s.dispatch.state.now = s.now := by
  unfold dispatch
  split
  · rfl
  · rw [now_handOver]
    rfl
  · rfl

/-! ### Tables -/

/-- What an action does to a table: a contribution arrives, and the key of a task that is handed
over by a dispatch is acknowledged if the queue consults the table. -/
def Moment.onTable (m : Moment) (table : CountingTable) : CountingTable :=
  match m.action, m.returned? with
  | .change (.contribute key), _ => table.add key
  | .dispatch, some t => if m.before.queue.gated then table.clear t.key else table
  | _, _ => table

theorem Moment.table_after (m : Moment) :
    m.after.readiness.table = m.before.readiness.table.map m.onTable := by
  obtain ⟨s, a⟩ := m
  -- most actions do nothing to a table
  have hkept : ∀ {a}, onTable ⟨s, a⟩ = id → (s.act a).state.readiness.table = s.readiness.table →
      (after ⟨s, a⟩).readiness.table = s.readiness.table.map (onTable ⟨s, a⟩) := by
    intro a hid htable
    rw [hid, Option.map_id, after, outcome, htable, id]
  cases a with
  | submit t => exact hkept rfl rfl
  | dispatch =>
    have hreadiness := s.readiness_dispatch
    rw [after, outcome_dispatch, hreadiness]
    rcases s.dispatch_cases with
      ⟨f, q, -, hdispatch⟩ | ⟨q, -, hdispatch⟩ | ⟨t, q, credit, s', -, -, -, hdispatch, -⟩
    · cases htable : s.readiness.table <;> simp [hdispatch, htable, onTable, returned?]
    · cases htable : s.readiness.table <;> simp [hdispatch, htable, onTable, returned?]
    · cases htable : s.readiness.table <;> cases hgated : s.queue.gated <;>
        simp [hdispatch, htable, onTable, returned?, hgated, Queue.acknowledge,
          Readiness.acknowledge, Task.released]
  | dispatchKey key => exact hkept rfl (congrArg Readiness.table (s.readiness_dispatchKey key))
  | finish len => exact hkept rfl rfl
  | change c =>
    cases c with
    | contribute key =>
      cases htable : s.readiness.table <;>
        simp [after, outcome, Session.act, Session.apply, Session.step, htable, onTable]
    | _ => exact hkept rfl rfl

end TensorDispatch
