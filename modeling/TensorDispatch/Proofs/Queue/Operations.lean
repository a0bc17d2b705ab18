import TensorDispatch.Proofs.Queue.Choice
import TensorDispatch.Session

/-!
# Operations of a queue

What each operation does to a queue, as callers see it.

* `Queue.policyOf_eq_ok_iff` — the policy of a strategy;
* `Queue.create_ofSchedule`, `Queue.eq_ofSchedule_of_create` — the push queue of token replay;
* `Queue.submit_spec`, `Queue.finish_spec` — a task enters, and work is reported finished;
* `Session.dispatch_cases`, `Session.dispatchKey_cases` — a task is handed over, or the call ends
  without one. A task that is chosen is always handed over: its bytes were covered when it was
  admitted, so credit is never overdrawn (`Credit.exists_acquire`).
-/

namespace TensorDispatch

/-- Bytes that are admitted can be acquired. -/
theorem Credit.exists_acquire {c : Credit} {len : Nat} (h : c.admits len = true) :
    ∃ d, c.acquire len = .ok d := by
  cases c with
  | unmetered => exact ⟨_, rfl⟩
  | metered available inFlight => exact ⟨_, if_pos (by simpa [admits] using h)⟩

theorem Credit.acquire_of_not_isMetered {c : Credit} (h : c.isMetered = false) (len : Nat) :
    c.acquire len = .ok c := by
  cases c with
  | unmetered => rfl
  | metered available inFlight => simp [isMetered] at h

@[simp] theorem Throttle.pending_restart (now : Int) (w : Throttle) :
    (w.restart now).state.pending = w.pending := by
  simp only [restart]
  split <;> rfl

/-- A gradient that is accepted waits with the others. -/
theorem Throttle.pending_submit {now : Int} {t : Task} {w : Throttle}
    (h : (w.submit now t).IsAnswered) : (w.submit now t).state.pending = w.pending.insert t := by
  have hpending := w.pending_restart now
  unfold submit at h ⊢
  split
  · rename_i hhead
    rcases hrestart : w.restart now with ⟨f | _, w'⟩
    · obtain ⟨_, h⟩ := h
      simp [hhead, hrestart] at h
    · rw [hrestart] at hpending
      exact congrArg (Pending.insert t) hpending
  · rfl

/-- A usable configuration of token replay has a usable schedule. -/
theorem QueueConfig.exists_schedule {config : QueueConfig} (h : config.validate = .ok ())
    (hstrategy : config.strategy = .tokenReplay) :
    ∃ schedule, config.schedule = some schedule ∧ schedule.validate = .ok () := by
  unfold validate at h
  split at h
  · cases h
  · cases hschedule : config.schedule with
    | none => simp [hstrategy, requireSchedule, hschedule, bind, Except.bind] at h
    | some schedule =>
      refine ⟨schedule, rfl, ?_⟩
      simpa [hstrategy, requireSchedule, hschedule, bind, Except.bind] using h

/-- A usable configuration of the time-window strategy has a usable window plan. -/
theorem QueueConfig.exists_window {config : QueueConfig} (h : config.validate = .ok ())
    (hstrategy : config.strategy = .timeWindow) :
    ∃ plan, config.window = some plan ∧ plan.validate = .ok () := by
  unfold validate at h
  split at h
  · cases h
  · cases hwindow : config.window with
    | none => simp [hstrategy, requireWindow, hwindow, bind, Except.bind] at h
    | some plan =>
      refine ⟨plan, rfl, ?_⟩
      simpa [hstrategy, requireWindow, hwindow, bind, Except.bind] using h

namespace Queue

/-! ### Construction -/

/-- A queue is created from an accepted configuration, with the policy of its strategy, and with
nothing in it. -/
theorem create_eq_ok {stage : Stage} {config : QueueConfig} {role : Role} {q : Queue}
    (h : create stage config role = .ok q) :
    config.validate = .ok () ∧ policyOf (strategyAt stage config) config = .ok q.policy ∧
      q = {
        stage
        strategy := strategyAt stage config
        gated := stage.gatesOnTable role
        scanned := { ordered := (creditAt stage config role).isMetered }
        credit := creditAt stage config role
        policy := q.policy } := by
  unfold create at h
  cases hvalid : config.validate with
  | error e => simp [hvalid, bind, Except.bind] at h
  | ok u =>
    cases hpolicy : policyOf (strategyAt stage config) config with
    | error e => simp [hvalid, hpolicy, bind, Except.bind] at h
    | ok policy =>
      simp only [hvalid, hpolicy, bind, Except.bind, pure, Except.pure, Except.ok.injEq] at h
      subst h
      exact ⟨rfl, rfl, rfl⟩

/-- The policy of a strategy starts from what the configuration has for this strategy. -/
theorem policyOf_eq_ok_iff {strategy : Strategy} {config : QueueConfig} {policy : Policy} :
    policyOf strategy config = .ok policy ↔
      strategy = .plain ∧ policy = .plain ∨
      (∃ schedule, strategy = .tokenReplay ∧ config.schedule = some schedule ∧
        policy = .replay (.start schedule config.door)) ∨
      ∃ plan, strategy = .timeWindow ∧ config.window = some plan ∧
        policy = .throttle (.start plan config.beginName) := by
  cases strategy with
  | plain => simp [policyOf, eq_comm]
  | tokenReplay =>
    cases hschedule : config.schedule <;>
      simp [policyOf, QueueConfig.requireSchedule, hschedule, bind, Except.bind, pure, Except.pure,
        eq_comm]
  | timeWindow =>
    cases hwindow : config.window <;>
      simp [policyOf, QueueConfig.requireWindow, hwindow, bind, Except.bind, pure, Except.pure,
        eq_comm]

/-- The policy of a strategy starts with nothing in it. -/
theorem tasks_policyOf {strategy : Strategy} {config : QueueConfig} {policy : Policy}
    (h : policyOf strategy config = .ok policy) : policy.tasks = [] := by
  obtain ⟨-, rfl⟩ | ⟨schedule, -, -, rfl⟩ | ⟨plan, -, -, rfl⟩ := policyOf_eq_ok_iff.mp h
  · rfl
  · rfl
  · rfl

theorem tasks_create {stage : Stage} {config : QueueConfig} {role : Role} {q : Queue}
    (h : create stage config role = .ok q) : q.tasks = [] := by
  obtain ⟨-, hpolicy, hq⟩ := create_eq_ok h
  rw [hq]
  exact tasks_policyOf hpolicy

/-- The configuration of a plain strategy has a queue, if it is accepted. -/
theorem exists_create_of_plain {stage : Stage} {config : QueueConfig}
    (hvalid : config.validate = .ok ()) (hplain : strategyAt stage config = .plain)
    (role : Role) : ∃ q, create stage config role = .ok q := by
  simp only [create, hvalid, hplain, policyOf, bind, Except.bind]
  exact ⟨_, rfl⟩

/-- What is accepted has a queue, on every stage and under every role. -/
theorem exists_create {config : QueueConfig} (hvalid : config.validate = .ok ()) (stage : Stage)
    (role : Role) : ∃ q, create stage config role = .ok q := by
  have hpolicy : ∃ policy, policyOf (strategyAt stage config) config = .ok policy := by
    by_cases hstage : stage = .push
    · rw [strategyAt, if_pos hstage]
      cases hstrategy : config.strategy with
      | plain => exact ⟨_, rfl⟩
      | tokenReplay =>
        obtain ⟨schedule, hschedule, -⟩ := QueueConfig.exists_schedule hvalid hstrategy
        exact ⟨_, policyOf_eq_ok_iff.mpr (.inr (.inl ⟨schedule, rfl, hschedule, rfl⟩))⟩
      | timeWindow =>
        obtain ⟨plan, hwindow, -⟩ := QueueConfig.exists_window hvalid hstrategy
        exact ⟨_, policyOf_eq_ok_iff.mpr (.inr (.inr ⟨plan, rfl, hwindow, rfl⟩))⟩
    · rw [strategyAt, if_neg hstage]
      exact ⟨_, rfl⟩
  obtain ⟨policy, hpolicy⟩ := hpolicy
  simp only [create, hvalid, hpolicy, bind, Except.bind]
  exact ⟨_, rfl⟩

/-- A fresh push queue that replays a schedule. -/
def ofSchedule (schedule : Schedule) (door : Door) (role : Role) : Queue where
  stage := .push
  strategy := .tokenReplay
  gated := Stage.push.gatesOnTable role
  scanned := { ordered := false }
  credit := .unmetered
  policy := .replay (.start schedule door)

/-- The push queue of a usable configuration of token replay. -/
theorem create_ofSchedule {config : QueueConfig} {schedule : Schedule}
    (hvalid : config.validate = .ok ()) (hstrategy : config.strategy = .tokenReplay)
    (hschedule : config.schedule = some schedule) (role : Role) :
    create .push config role = .ok (ofSchedule schedule config.door role) := by
  have hfollowed : strategyAt .push config = .tokenReplay := by
    rw [strategyAt, if_pos rfl, hstrategy]
  have hpolicy : policyOf .tokenReplay config = .ok (.replay (.start schedule config.door)) :=
    policyOf_eq_ok_iff.mpr (.inr (.inl ⟨schedule, rfl, hschedule, rfl⟩))
  have hcredit : creditAt .push config role = .unmetered := by
    simp [creditAt, Stage.usesCredit, Credit.ofBudget]
  simp only [create, hvalid, hfollowed, hpolicy, hcredit, bind, Except.bind]
  rfl

/-- A push queue under token replay starts with the schedule of its configuration. -/
theorem eq_ofSchedule_of_create {config : QueueConfig} {role : Role} {q : Queue}
    (h : create .push config role = .ok q) (hstrategy : config.strategy = .tokenReplay) :
    ∃ schedule, config.schedule = some schedule ∧ schedule.validate = .ok () ∧
      q = ofSchedule schedule config.door role := by
  have hvalid := (create_eq_ok h).1
  obtain ⟨schedule, hschedule, husable⟩ := QueueConfig.exists_schedule hvalid hstrategy
  refine ⟨schedule, hschedule, husable, ?_⟩
  rw [create_ofSchedule hvalid hstrategy hschedule role] at h
  exact (Except.ok.inj h).symm

variable (q : Queue)

/-! ### Submission -/

/-- Where a task waits once it is accepted. -/
theorem place_spec (now : Int) (t : Task) :
    let o := q.place now t
    (∃ scanned policy, o.state = { q with scanned, policy }) ∧
      (o.IsAnswered → o.state.tasks.Perm (t :: q.tasks)) := by
  have hscanned : ({ q with scanned := q.scanned.insert t } : Queue).tasks.Perm (t :: q.tasks) :=
    List.Perm.append_right _ (q.scanned.perm_insert t)
  simp only [place]
  split
  · split
    · exact ⟨⟨_, _, rfl⟩, fun _ => hscanned⟩
    · rename_i r hpolicy
      refine ⟨⟨_, _, rfl⟩, fun _ => ?_⟩
      have hperm := List.Perm.append_right r.staged (r.pending.perm_insert t)
      have hall := (List.Perm.append_left q.scanned.tasks hperm).trans List.perm_middle
      simpa [tasks, Policy.tasks, Policy.pendingTasks, Policy.stagedTasks, hpolicy, Replay.submit]
        using hall
    · rename_i w hpolicy
      refine ⟨⟨_, _, rfl⟩, fun hanswered => ?_⟩
      have hpending := Throttle.pending_submit hanswered
      have hall := (List.Perm.append_left q.scanned.tasks (w.pending.perm_insert t)).trans
        List.perm_middle
      simpa [tasks, Policy.tasks, Policy.pendingTasks, Policy.stagedTasks, hpolicy, hpending]
        using hall
  · exact ⟨⟨_, _, rfl⟩, fun _ => hscanned⟩

/-- A submission changes neither credit nor what is fixed, and an accepted task is in the queue
and counted. -/
theorem submit_spec (now : Int) (t : Task) :
    let o := q.submit now t
    (∃ scanned policy stats, o.state = { q with scanned, policy, stats }) ∧
      (o.IsAnswered → o.state.tasks.Perm (t :: q.tasks) ∧
        o.state.stats = q.stats.countSubmitted.notePending o.state.pendingSize) := by
  have hplace := place_spec { q with stats := q.stats.countSubmitted } now t
  unfold submit
  split
  · exact ⟨⟨_, _, _, rfl⟩, fun ⟨_, h⟩ => by cases h⟩
  · rcases hq : place now t { q with stats := q.stats.countSubmitted } with ⟨f | _, q'⟩
    · rw [hq] at hplace
      obtain ⟨⟨scanned, policy, rfl⟩, -⟩ := hplace
      exact ⟨⟨_, _, _, rfl⟩, fun ⟨_, h⟩ => by cases h⟩
    · rw [hq] at hplace
      obtain ⟨⟨scanned, policy, rfl⟩, hperm⟩ := hplace
      exact ⟨⟨_, _, _, rfl⟩, fun _ => ⟨hperm ⟨_, rfl⟩, rfl⟩⟩

/-! ### Completion -/

@[simp] theorem policy_returnCredit (len : Nat) (q : Queue) :
    (q.returnCredit len).state.policy = q.policy := by
  unfold returnCredit
  split <;> rfl

/-- A completion opens a door or returns credit, is counted in either case, and moves no task. -/
theorem finish_spec (len : Nat) :
    ∃ credit policy, (q.finish len).state =
        { q with credit, policy, stats := q.stats.countFinished } ∧
      policy.pendingTasks = q.policy.pendingTasks ∧ policy.stagedTasks = q.policy.stagedTasks := by
  have hcredit : ∃ credit, (returnCredit len { q with stats := q.stats.countFinished }).state =
      { q with credit, stats := q.stats.countFinished } := by
    unfold returnCredit
    split <;> exact ⟨_, rfl⟩
  -- a policy without a door passes the report on to credit
  obtain ⟨credit, hcredit⟩ := hcredit
  simp only [finish]
  split
  · rename_i r hpolicy
    split
    · split
      · exact ⟨_, _, rfl, by simp [hpolicy, Policy.pendingTasks],
          by simp [hpolicy, Policy.stagedTasks]⟩
      · exact ⟨_, _, rfl, rfl, rfl⟩
    · exact ⟨credit, _, hcredit, rfl, rfl⟩
  · exact ⟨credit, _, hcredit, rfl, rfl⟩

end Queue

/-! ### Operations in a session -/

namespace Session

/-- A session around a fresh push queue that replays a schedule. -/
def ofReplay (schedule : Schedule) (door : Door) : Session where
  queue :=
    { stage := .push, strategy := .tokenReplay, gated := false, scanned := { ordered := false }
      credit := .unmetered, policy := .replay (.start schedule door) }

theorem create_ofReplay (schedule : Schedule) (h : schedule.validate = .ok ()) (door : Door) :
    Queue.create .push { strategy := .tokenReplay, schedule := some schedule, door } {} =
      .ok (ofReplay schedule door).queue := by
  have hvalid : QueueConfig.validate
      { strategy := .tokenReplay, schedule := some schedule, door } = .ok () := by
    simp [QueueConfig.validate, QueueConfig.checkedBudget, QueueConfig.effectiveMultiplier,
      QueueConfig.requireSchedule, wordBound, bind, Except.bind, h]
  exact Queue.create_ofSchedule hvalid rfl rfl {}

/-- A fresh replay of two tensors, with the boundary at the second. -/
def twoTensorReplay : Session := ofReplay ⟨[-2, -1], -1, 2⟩ .boundary

variable (s : Session)

@[simp] theorem result_submit (t : Task) :
    (s.submit t).result = (s.queue.submit s.now t).result := rfl

@[simp] theorem result_finish (len : Nat) :
    (s.finish len).result = (s.queue.finish len).result := rfl

/-- A task whose bytes are covered is handed over. -/
theorem handOver_spec {t : Task} {credit : Credit} (h : s.queue.credit.acquire t.len = .ok credit) :
    ∃ s', handOver t s = .answered (some t.released) s' ∧
      s'.queue = { s.queue with credit, stats := s.queue.stats.countDispatched } := by
  simp only [handOver, Queue.release, h]
  exact ⟨_, rfl, rfl⟩

/-- A dispatch ends as the choice of the queue does, and a chosen task is handed over. -/
theorem dispatch_cases :
    (∃ f q, s.queue.choose s.readiness s.now = .refused f q ∧
      s.dispatch = .refused f { s with queue := q }) ∨
    (∃ q, s.queue.choose s.readiness s.now = .answered none q ∧
      s.dispatch = .answered none { s with queue := q }) ∨
    ∃ t q credit s', s.queue.choose s.readiness s.now = .answered (some t) q ∧
      s.queue.admits s.readiness t = true ∧ s.queue.credit.acquire t.len = .ok credit ∧
      s.dispatch = .answered (some t.released) s' ∧
      s'.queue = { q with credit, stats := q.stats.countDispatched } := by
  have hspec := s.queue.choose_spec s.readiness s.now
  unfold dispatch
  rcases hchoose : s.queue.choose s.readiness s.now with ⟨f | _ | t, q⟩
  · exact .inl ⟨f, q, rfl, rfl⟩
  · exact .inr (.inl ⟨q, rfl, rfl⟩)
  · rw [hchoose] at hspec
    obtain ⟨⟨scanned, policy, stats, rfl, -⟩, -, -, hadmits⟩ := hspec
    have hadmits : s.queue.admits s.readiness t = true := hadmits t (by simp [Outcome.taken])
    -- admission has covered the bytes, so handing over cannot overdraw
    have hcovered : s.queue.credit.admits t.len = true := by
      simp only [Queue.admits, Bool.and_eq_true] at hadmits
      exact hadmits.1.2
    obtain ⟨credit, hcredit⟩ := Credit.exists_acquire hcovered
    obtain ⟨s', hs', hq⟩ := handOver_spec
      { s with
        queue := { s.queue with scanned, policy, stats }
        readiness := if s.queue.gated then s.readiness.acknowledge t.key else s.readiness }
      hcredit
    exact .inr (.inr ⟨t, _, credit, s', rfl, hadmits, hcredit, hs', hq⟩)

/-- A dispatch is refused when the choice is, and keeps what the choice leaves. -/
theorem dispatch_refused {s : Session} {f : Fault} (h : s.dispatch.result = .error f) :
    ∃ q, s.queue.choose s.readiness s.now = .refused f q ∧
      s.dispatch = .refused f { s with queue := q } := by
  rcases s.dispatch_cases with
    ⟨f', q, hchoose, hdispatch⟩ | ⟨q, -, hdispatch⟩ | ⟨t, q, credit, s', -, -, -, hdispatch, -⟩
  · rw [hdispatch] at h
    cases h
    exact ⟨q, hchoose, hdispatch⟩
  · rw [hdispatch] at h
    cases h
  · rw [hdispatch] at h
    cases h

/-- A dispatch shows what its choice shows. -/
theorem dispatch_of_choose {s : Session} {t : Option Task} {q : Queue}
    (h : s.queue.choose s.readiness s.now = .answered t q) :
    ∃ s', s.dispatch = .answered (t.map Task.released) s' ∧ s'.queue.policy = q.policy ∧
      s'.queue.scanned = q.scanned ∧ s'.queue.stats.iterations = q.stats.iterations ∧
      s'.queue.stats.windowRolls = q.stats.windowRolls ∧
      s'.queue.stats.barrierBlocks = q.stats.barrierBlocks := by
  rcases s.dispatch_cases with
    ⟨f, q', hchoose, hdispatch⟩ | ⟨q', hchoose, hdispatch⟩ |
      ⟨u, q', credit, s', hchoose, -, -, hdispatch, hq⟩
  · cases h.symm.trans hchoose
  · cases h.symm.trans hchoose
    exact ⟨_, hdispatch, rfl, rfl, rfl, rfl, rfl⟩
  · cases h.symm.trans hchoose
    refine ⟨s', hdispatch, ?_, ?_, ?_, ?_, ?_⟩
    · rw [hq]
    · rw [hq]
    · rw [hq]
      rfl
    · rw [hq]
      rfl
    · rw [hq]
      rfl

/-- A dispatch by key is refused, finds nothing, or hands the task over. -/
theorem dispatchKey_cases (key : Nat) :
    (∃ f scanned, s.queue.chooseKey s.readiness key = .refused f { s.queue with scanned } ∧
      s.dispatchKey key = .refused f { s with queue := { s.queue with scanned } }) ∨
    s.dispatchKey key = .answered none s ∨
    ∃ t scanned s', s.dispatchKey key = .answered (some t.released) s' ∧
      s.queue.credit.isMetered = false ∧ s.queue.policy = .plain ∧
      s.queue.scanned.tasks.Perm (t :: scanned.tasks) ∧
      s'.queue = { s.queue with scanned, stats := s.queue.stats.countDispatched } := by
  unfold dispatchKey
  rcases s.queue.chooseKey_cases s.readiness key with
    ⟨f, scanned, hchoose⟩ | hchoose | ⟨t, scanned, hchoose, hcredit, hpolicy, hperm⟩
  · rw [hchoose]
    exact .inl ⟨f, scanned, rfl, rfl⟩
  · rw [hchoose]
    exact .inr (.inl rfl)
  · rw [hchoose]
    have hacquire := Credit.acquire_of_not_isMetered hcredit t.len
    obtain ⟨s', hs', hq⟩ := handOver_spec { s with queue := { s.queue with scanned } } hacquire
    exact .inr (.inr ⟨t, scanned, s', hs', hcredit, hpolicy, hperm, hq⟩)

theorem dispatchKey_refused {s : Session} {key : Nat} {f : Fault}
    (h : (s.dispatchKey key).result = .error f) :
    ∃ scanned, s.queue.chooseKey s.readiness key = .refused f { s.queue with scanned } ∧
      s.dispatchKey key = .refused f { s with queue := { s.queue with scanned } } := by
  rcases s.dispatchKey_cases key with
    ⟨f', scanned, hchoose, hdispatch⟩ | hdispatch | ⟨t, scanned, s', hdispatch, -⟩
  · rw [hdispatch] at h
    cases h
    exact ⟨scanned, hchoose, hdispatch⟩
  · rw [hdispatch] at h
    cases h
  · rw [hdispatch] at h
    cases h

/-- A queue with a policy refuses dispatches by key, and stays as it is. -/
theorem dispatchKey_of_policy_ne_plain {s : Session} (h : s.queue.policy ≠ .plain) (key : Nat) :
    ∃ f, s.dispatchKey key = .refused f s := by
  obtain ⟨f, hchoose⟩ := s.queue.chooseKey_of_policy_ne_plain s.readiness h key
  exact ⟨f, by simp [dispatchKey, hchoose, Outcome.refused]⟩

end Session

end TensorDispatch
