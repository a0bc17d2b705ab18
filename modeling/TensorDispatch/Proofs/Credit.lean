import Mathlib.Algebra.GroupWithZero.Nat
import Mathlib.Algebra.Order.BigOperators.Group.List
import Mathlib.Algebra.Order.Group.Nat
import Mathlib.Data.List.Infix
import TensorDispatch.Proofs.Queue.Faults

/-!
# Conservation of credit

Credit leaves an account when a task is handed over and comes back when work is reported finished.

* `Moment.OnCredit` — what one action does to credit, whatever the policy of the queue;
* `Session.ReportsOnce` — callers report the tasks that were handed over to them, none of them
  twice;
* `credit_conserved` — along every run on a metered queue, what is available and what is in flight
  add up to the budget, and what is in flight is what was handed over less what was reported.

A replay keeps the completions behind its boundary to itself (`Moment.OnCredit.permitted`). That
loses no credit, because a metered queue has no policy and a queue with a policy is not metered.
-/

namespace TensorDispatch

open scoped List

/-! ### Accounts -/

namespace Credit

variable {available inFlight len : Nat} {c d : Credit} {f : Fault}

theorem acquire_metered_eq_ok (h : (metered available inFlight).acquire len = .ok d) :
    len ≤ available ∧ d = metered (available - len) (inFlight + len) := by
  by_cases hle : len ≤ available
  · simp only [acquire, hle, if_true, Except.ok.injEq] at h
    exact ⟨hle, h.symm⟩
  · simp [acquire, hle] at h

theorem giveBack_metered_eq_ok (h : (metered available inFlight).giveBack len = .ok d) :
    len ≤ inFlight ∧ d = metered (available + len) (inFlight - len) := by
  by_cases hle : len ≤ inFlight
  · simp only [giveBack, hle, if_true, Except.ok.injEq] at h
    exact ⟨hle, h.symm⟩
  · simp [giveBack, hle] at h

theorem giveBack_eq_error (h : c.giveBack len = .error f) :
    ∃ inFlight, f = .creditOverreturned len inFlight := by
  cases c with
  | unmetered => cases h
  | metered available inFlight =>
    by_cases hle : len ≤ inFlight
    · simp [giveBack, hle] at h
    · simp only [giveBack, hle, if_false, Except.error.injEq] at h
      exact ⟨inFlight, h.symm⟩

end Credit

/-! ### Actions -/

namespace Moment

/-- The bytes of a report, accepted or not. -/
def report? (m : Moment) : Option Nat :=
  match m.action with
  | .finish len => some len
  | _ => none

/-- The bytes of a report that is accepted. -/
def finished? (m : Moment) : Option Nat :=
  match m.action, m.outcome.result with
  | .finish len, .ok _ => some len
  | _, _ => none

/-- What an action can do to the credit of a queue. -/
inductive OnCredit (m : Moment) (c : Credit) : Credit → Prop
  /-- No task is handed over, and no report accepted. -/
  | kept (hreturned : m.returned? = none) (hfinished : m.finished? = none) : OnCredit m c c
  /-- A task is handed over. -/
  | acquired {t : Task} {d : Credit} (hacquire : c.acquire t.len = .ok d)
      (hreturned : m.returned? = some t.released) (hfinished : m.finished? = none) : OnCredit m c d
  /-- A report gives credit back. -/
  | gaveBack {len : Nat} {d : Credit} (hback : c.giveBack len = .ok d)
      (hreturned : m.returned? = none) (hfinished : m.finished? = some len) : OnCredit m c d
  /-- A report is kept by the policy. -/
  | permitted (hpolicy : m.before.queue.policy ≠ .plain) (hreturned : m.returned? = none) :
      OnCredit m c c

end Moment

namespace Queue

variable {q : Queue}

/-- Without a policy, a task waits with the scanned ones. -/
theorem policy_submit_plain (h : q.policy = .plain) (now : Int) (t : Task) :
    (q.submit now t).state.policy = .plain := by
  have hplace : ∃ scanned, place now t { q with stats := q.stats.countSubmitted } =
      .answered () { q with scanned, stats := q.stats.countSubmitted } := by
    simp only [place, h]
    split <;> exact ⟨_, rfl⟩
  obtain ⟨scanned, hplace⟩ := hplace
  unfold submit
  split
  · exact h
  · rw [hplace]
    exact h

/-- Without a policy, a task with a name joins those that are scanned. -/
theorem submit_named_plain (h : q.policy = .plain) (now : Int) {t : Task}
    (hname : t.name.isEmpty = false) :
    ∃ n, q.submit now t =
      .answered ()
        { q with
          scanned := q.scanned.insert t
          stats := q.stats.countSubmitted.notePending n } := by
  have hplace : place now t { q with stats := q.stats.countSubmitted } =
      .answered () { q with scanned := q.scanned.insert t, stats := q.stats.countSubmitted } := by
    simp [place, h]
  simp only [submit, hname, hplace]
  exact ⟨_, rfl⟩

/-- Without a policy, a choice is made among the scanned tasks. -/
theorem choose_plain (h : q.policy = .plain) (readiness : Readiness) (now : Int) :
    q.choose readiness now =
      .answered (q.chooseScanned readiness).1 (q.chooseScanned readiness).2 := by
  simp only [choose, chooseGradient, h]
  rfl

/-- Without a policy, a report gives credit back. -/
theorem finish_plain (h : q.policy = .plain) (len : Nat) :
    q.finish len = returnCredit len { q with stats := q.stats.countFinished } := by
  simp only [finish, h]

/-- A report is refused, gives credit back, or is kept by the policy. -/
theorem credit_finish (q : Queue) (len : Nat) :
    (∃ f, (q.finish len).result = .error f ∧ (q.finish len).state.credit = q.credit) ∨
    (∃ d, (q.finish len).result = .ok () ∧ q.credit.giveBack len = .ok d ∧
      (q.finish len).state.credit = d) ∨
    q.policy ≠ .plain ∧ (q.finish len).result = .ok () ∧
      (q.finish len).state.credit = q.credit := by
  -- only a replay behind its boundary keeps a report from credit
  have hback : q.finish len = returnCredit len { q with stats := q.stats.countFinished } →
      (∃ f, (q.finish len).result = .error f ∧ (q.finish len).state.credit = q.credit) ∨
      ∃ d, (q.finish len).result = .ok () ∧ q.credit.giveBack len = .ok d ∧
        (q.finish len).state.credit = d := by
    intro hfinish
    rw [hfinish, returnCredit]
    cases hback : q.credit.giveBack len with
    | ok d => exact .inr ⟨d, rfl, rfl, rfl⟩
    | error f => exact .inl ⟨f, rfl, rfl⟩
  cases hpolicy : q.policy with
  | replay r =>
    cases hseen : r.boundarySeen with
    | true =>
      cases hpermit : r.grantPermit with
      | ok permits =>
        refine .inr (.inr ⟨by simp, ?_, ?_⟩) <;> simp [finish, hpolicy, hseen, hpermit]
      | error f =>
        refine .inl ⟨f, ?_, ?_⟩ <;> simp [finish, hpolicy, hseen, hpermit]
    | false =>
      have hfinish := hback (by simp [finish, hpolicy, hseen])
      exact hfinish.imp_right .inl
  | plain =>
    have hfinish := hback (by simp [finish, hpolicy])
    exact hfinish.imp_right .inl
  | throttle w =>
    have hfinish := hback (by simp [finish, hpolicy])
    exact hfinish.imp_right .inl

end Queue

namespace Moment

/-- Every action does one of these to credit. -/
theorem onCredit (m : Moment) : m.OnCredit m.before.queue.credit m.after.queue.credit := by
  obtain ⟨s, a⟩ := m
  cases a with
  | submit t =>
    obtain ⟨⟨scanned, policy, stats, hstate⟩, -⟩ := s.queue.submit_spec s.now t
    rw [queue_after_submit, hstate]
    exact .kept (by simp) rfl
  | dispatch =>
    obtain ⟨⟨scanned, policy, stats, hstate, -⟩, -⟩ := s.queue.choose_spec s.readiness s.now
    rcases s.dispatch_cases with
      ⟨f, q, hchoose, hdispatch⟩ | ⟨q, hchoose, hdispatch⟩ |
        ⟨t, q, credit, s', -, -, hacquire, hdispatch, hq⟩
    · rw [hchoose, Outcome.state_refused] at hstate
      rw [after, outcome_dispatch, hdispatch, Outcome.state_refused, hstate]
      exact .kept (by simp [returned?, hdispatch]) rfl
    · rw [hchoose, Outcome.state_answered] at hstate
      rw [after, outcome_dispatch, hdispatch, Outcome.state_answered, hstate]
      exact .kept (by simp [returned?, hdispatch]) rfl
    · rw [after, outcome_dispatch, hdispatch, Outcome.state_answered, hq]
      exact .acquired hacquire (by simp [returned?, hdispatch]) rfl
  | dispatchKey key =>
    rcases s.dispatchKey_cases key with
      ⟨f, scanned, -, hdispatch⟩ | hdispatch | ⟨t, scanned, s', hdispatch, hunmetered, -, -, hq⟩
    · rw [after, outcome_dispatchKey, hdispatch, Outcome.state_refused]
      exact .kept (by simp [returned?, hdispatch]) rfl
    · rw [after, outcome_dispatchKey, hdispatch, Outcome.state_answered]
      exact .kept (by simp [returned?, hdispatch]) rfl
    · have hacquire := Credit.acquire_of_not_isMetered hunmetered t.len
      rw [after, outcome_dispatchKey, hdispatch, Outcome.state_answered, hq]
      exact .acquired hacquire (by simp [returned?, hdispatch]) rfl
  | finish len =>
    rw [queue_after_finish]
    rcases s.queue.credit_finish len with
      ⟨f, hresult, hsame⟩ | ⟨d, hresult, hback, hnew⟩ | ⟨hpolicy, hresult, hsame⟩
    · rw [hsame]
      exact .kept (by simp) (by simp [finished?, hresult, Except.map])
    · rw [hnew]
      exact .gaveBack hback (by simp) (by simp [finished?, hresult, Except.map])
    · rw [hsame]
      exact .permitted hpolicy (by simp)
  | change c =>
    rw [queue_after_change]
    exact .kept rfl rfl

/-- A queue without a policy never gets one. -/
theorem policy_after_plain {m : Moment} (h : m.before.queue.policy = .plain) :
    m.after.queue.policy = .plain := by
  obtain ⟨s, a⟩ := m
  have h : s.queue.policy = .plain := h
  cases a with
  | submit t => exact Queue.policy_submit_plain h s.now t
  | dispatch =>
    obtain ⟨⟨scanned, hscan⟩, -⟩ := s.queue.chooseScanned_spec s.readiness
    obtain ⟨s', hdispatch, hpolicy, -, -⟩ :=
      Session.dispatch_of_choose (Queue.choose_plain h s.readiness s.now)
    rw [after, outcome_dispatch, hdispatch, Outcome.state_answered, hpolicy, hscan]
    exact h
  | dispatchKey key =>
    rcases s.dispatchKey_cases key with
      ⟨f, scanned, -, hdispatch⟩ | hdispatch | ⟨t, scanned, s', hdispatch, -, -, -, hq⟩
    · simpa [after, hdispatch] using h
    · simpa [after, hdispatch] using h
    · simpa [after, hdispatch, hq] using h
  | finish len =>
    rw [queue_after_finish, Queue.finish_plain h, Queue.policy_returnCredit]
    exact h
  | change c =>
    rw [queue_after_change]
    exact h

end Moment

/-! ### Runs -/

namespace Session

variable {s : Session}

/-- Callers report only tasks that were handed over before, none of them twice. -/
def ReportsOnce (s : Session) (actions : List Action) : Prop :=
  ∀ earlier, earlier <+: actions → ∃ reported : List Task,
    (s.history earlier).filterMap Moment.report? = reported.map Task.len ∧
      reported <+~ (s.history earlier).filterMap Moment.returned?

/-- The account of a metered queue after a history: what has been handed over and is not reported
is in flight, and the rest of the budget is available. -/
def Accounts (budget : Nat) (h : List Moment) (s : Session) : Prop :=
  ∃ available inFlight, s.queue.policy = .plain ∧
    s.queue.credit = .metered available inFlight ∧ available + inFlight = budget ∧
    inFlight + (h.filterMap Moment.finished?).sum =
      ((h.filterMap Moment.returned?).map Task.len).sum

/-- One more moment keeps the account. -/
theorem Accounts.act {budget : Nat} {h : List Moment} {m : Moment}
    (hbefore : Accounts budget h m.before) : Accounts budget (h ++ [m]) m.after := by
  obtain ⟨available, inFlight, hpolicy, hcredit, hbudget, hflight⟩ := hbefore
  have hpolicy' := Moment.policy_after_plain hpolicy
  have hm := m.onCredit
  rw [hcredit] at hm
  rw [Accounts, Moment.filterMap_concat, Moment.filterMap_concat, List.map_append,
    List.sum_append, List.sum_append]
  generalize m.after.queue.credit = c at hm ⊢
  cases hm with
  | kept hreturned hfinished =>
    refine ⟨available, inFlight, hpolicy', rfl, hbudget, ?_⟩
    rw [hreturned, hfinished]
    simpa using hflight
  | @acquired t _ hacquire hreturned hfinished =>
    obtain ⟨hle, rfl⟩ := Credit.acquire_metered_eq_ok hacquire
    refine ⟨available - t.len, inFlight + t.len, hpolicy', rfl, by omega, ?_⟩
    simp only [hreturned, hfinished, Option.toList_none, Option.toList_some, List.sum_nil,
      List.map_singleton, List.sum_singleton, Task.released]
    omega
  | @gaveBack len _ hback hreturned hfinished =>
    obtain ⟨hle, rfl⟩ := Credit.giveBack_metered_eq_ok hback
    refine ⟨available + len, inFlight - len, hpolicy', rfl, by omega, ?_⟩
    simp only [hreturned, hfinished, Option.toList_none, Option.toList_some, List.sum_nil,
      List.map_nil, List.sum_singleton]
    omega
  -- a metered queue has no policy that could keep a report
  | permitted hkept => exact absurd hpolicy hkept

theorem accounts_after {budget : Nat} (hpolicy : s.queue.policy = .plain)
    (hcredit : s.queue.credit = .metered budget 0) (actions : List Action) :
    Accounts budget (s.history actions) (s.after actions) :=
  history_induction ⟨budget, 0, hpolicy, hcredit, rfl, rfl⟩ (fun _ _ => .act) actions

/-- An account that is not metered stays so. -/
theorem unmetered_after (hcredit : s.queue.credit = .unmetered) (actions : List Action) :
    (s.after actions).queue.credit = .unmetered := by
  refine history_induction (I := fun _ s => s.queue.credit = .unmetered) hcredit ?_ actions
  intro h m hcredit
  have hm := m.onCredit
  rw [hcredit] at hm
  generalize m.after.queue.credit = c at hm
  cases hm with
  | kept => rfl
  | acquired hacquire =>
    cases hacquire
    rfl
  | gaveBack hback =>
    cases hback
    rfl
  | permitted => rfl

end Session

/-! ### Budgets -/

/-- The budget of an accepted configuration is not cut off. -/
theorem QueueConfig.budget_of_validate {config : QueueConfig} (h : config.validate = .ok ()) :
    config.budget = config.partitionBound * config.effectiveMultiplier := by
  unfold validate at h
  split at h
  · cases h
  · rename_i hfits
    obtain ⟨budget, hbudget⟩ := Option.ne_none_iff_exists'.mp (by simpa using hfits)
    rw [QueueConfig.budget, hbudget, Option.getD_some]
    simp only [checkedBudget] at hbudget
    split at hbudget
    · exact (Option.some.inj hbudget).symm
    · cases hbudget

/-- Whether the queue of a stage meters its credit. -/
def QueueConfig.Meters (config : QueueConfig) (stage : Stage) (role : Role) : Prop :=
  stage = .reduce ∧ role.signalRoot = true ∧ 0 < config.effectiveMultiplier

namespace Queue

variable {stage : Stage} {config : QueueConfig} {role : Role} {q : Queue}

theorem create_of_meters (hq : create stage config role = .ok q) (h : config.Meters stage role) :
    q.policy = .plain ∧
      q.credit = .metered (config.partitionBound * config.effectiveMultiplier) 0 := by
  obtain ⟨hvalid, hpolicy, heq⟩ := create_eq_ok hq
  obtain ⟨rfl, hroot, hpos⟩ := h
  refine ⟨?_, ?_⟩
  · simpa [policyOf, strategyAt, eq_comm] using hpolicy
  · rw [heq, ← QueueConfig.budget_of_validate hvalid]
    simp [creditAt, Stage.usesCredit, hroot, hpos, Credit.ofBudget]

theorem create_of_not_meters (hq : create stage config role = .ok q)
    (h : ¬ config.Meters stage role) : q.credit = .unmetered := by
  obtain ⟨-, -, heq⟩ := create_eq_ok hq
  have hunmetered :
      ¬ (stage.usesCredit role && decide (0 < config.effectiveMultiplier)) = true := by
    simpa [QueueConfig.Meters, Stage.usesCredit, and_assoc] using h
  rw [heq, creditAt, if_neg hunmetered]
  rfl

end Queue

/-! ### Reports -/

theorem Moment.report?_of_finished? {m : Moment} {len : Nat} (h : m.finished? = some len) :
    m.report? = some len := by
  unfold finished? at h
  split at h
  · rename_i haction _
    rw [report?, haction]
    exact h
  · cases h

/-- Accepted reports are reports. -/
theorem Moment.sum_finished_le (h : List Moment) :
    (h.filterMap finished?).sum ≤ (h.filterMap report?).sum := by
  induction h with
  | nil => exact Nat.le_refl 0
  | cons m h ih =>
    cases hfinished : m.finished? with
    | some len =>
      have hreport := report?_of_finished? hfinished
      rw [List.filterMap_cons_some hfinished, List.filterMap_cons_some hreport, List.sum_cons,
        List.sum_cons]
      omega
    | none =>
      rw [List.filterMap_cons_none hfinished]
      cases hreport : m.report? with
      | some len =>
        rw [List.filterMap_cons_some hreport, List.sum_cons]
        omega
      | none =>
        rw [List.filterMap_cons_none hreport]
        exact ih

namespace Session

variable {s : Session}

/-- A metered queue accepts a report of what is in flight, and of no more. -/
theorem isAnswered_finish_iff {available inFlight : Nat} (hpolicy : s.queue.policy = .plain)
    (hcredit : s.queue.credit = .metered available inFlight) (len : Nat) :
    (s.finish len).IsAnswered ↔ len ≤ inFlight := by
  unfold Outcome.IsAnswered
  rw [result_finish, Queue.finish_plain hpolicy, Queue.returnCredit, hcredit]
  by_cases hle : len ≤ inFlight
  · simp [Credit.giveBack, hle]
  · simp [Credit.giveBack, hle]

/-- A report of a task that was handed over, the first of it, is accepted. -/
private theorem isAnswered_of_reportsOnce {budget : Nat} (hpolicy : s.queue.policy = .plain)
    (hcredit : s.queue.credit = .metered budget 0) {actions : List Action}
    (hreports : s.ReportsOnce actions) {m : Moment} (hm : m ∈ s.history actions) {len : Nat}
    (haction : m.action = .finish len) : m.outcome.IsAnswered := by
  obtain ⟨earlier, hearlier, hbefore⟩ := exists_after_of_mem_history hm
  obtain ⟨available, inFlight, hpolicy', hcredit', -, hflight⟩ :=
    accounts_after hpolicy hcredit earlier
  rw [haction] at hearlier
  obtain ⟨reported, hreported, htaken⟩ := hreports _ hearlier
  have hreport : (s.history (earlier ++ [.finish len])).filterMap Moment.report? =
      (s.history earlier).filterMap Moment.report? ++ [len] := by
    rw [history_concat, Moment.filterMap_concat]
    rfl
  have hreturned : (s.history (earlier ++ [.finish len])).filterMap Moment.returned? =
      (s.history earlier).filterMap Moment.returned? := by
    rw [history_concat, Moment.filterMap_concat, Moment.returned?_finish]
    exact List.append_nil _
  -- this report and all before it are covered by what was handed over before
  have hcovered : (reported.map Task.len).sum ≤
      (((s.history earlier).filterMap Moment.returned?).map Task.len).sum := by
    rw [hreturned] at htaken
    obtain ⟨taken, hperm, hsub⟩ := htaken
    calc (reported.map Task.len).sum
      _ = (taken.map Task.len).sum := (hperm.symm.map Task.len).sum_nat
      _ ≤ _ := (hsub.map Task.len).sum_le_sum fun _ _ => Nat.zero_le _
  rw [hreport] at hreported
  rw [← hreported, List.sum_append, List.sum_singleton, ← hflight] at hcovered
  have haccepted := Moment.sum_finished_le (s.history earlier)
  have hmoment : m.outcome.IsAnswered ↔ (m.before.finish len).IsAnswered := by
    rw [Moment.outcome, haction]
    exact Outcome.isAnswered_map _ _
  rw [hmoment, ← hbefore, isAnswered_finish_iff hpolicy' hcredit']
  omega

end Session

/-! ### Conservation -/

/-- **Conservation of credit.** On a metered queue, along every run, refused calls included, what is
available and what is in flight add up to the budget, and what is in flight is what has been handed
over less what has been reported. A report is refused exactly when it is of more than is in flight,
and then credit stays as it is; so callers that report what they were given, once, are never
refused. On any other queue no credit is ever in flight, and a report can be refused for its permit
alone. On no queue is credit overdrawn. -/
theorem credit_conserved {stage : Stage} {config : QueueConfig} {role : Role} {s : Session}
    (hs : Queue.create stage config role = .ok s.queue) (actions : List Action) :
    let now := s.after actions
    (config.Meters stage role →
      now.queue.credit.isMetered = true ∧
      now.queue.credit.available + now.queue.credit.inFlight =
        config.partitionBound * config.effectiveMultiplier ∧
      now.queue.credit.inFlight + ((s.history actions).filterMap Moment.finished?).sum =
        (((s.history actions).filterMap Moment.returned?).map Task.len).sum ∧
      (∀ len, ¬ (now.finish len).IsAnswered ↔ now.queue.credit.inFlight < len) ∧
      (∀ len, ¬ (now.finish len).IsAnswered →
        (now.finish len).state.queue.credit = now.queue.credit) ∧
      (s.ReportsOnce actions → ∀ m ∈ s.history actions, ∀ len, m.action = .finish len →
        m.outcome.IsAnswered)) ∧
    (¬ config.Meters stage role →
      now.queue.credit.isMetered = false ∧ now.queue.credit.inFlight = 0 ∧
      ∀ len f, (now.finish len).result = .error f → f = .sumOverflow) ∧
    ∀ a len available, (now.act a).result ≠ .error (.creditOverdrawn len available) := by
  dsimp only
  refine ⟨fun hmeters => ?_, fun hunmetered => ?_, fun a len available hfault => ?_⟩
  · obtain ⟨hpolicy, hcredit⟩ := Queue.create_of_meters hs hmeters
    obtain ⟨available, inFlight, hpolicy', hcredit', hbudget, hflight⟩ :=
      Session.accounts_after hpolicy hcredit actions
    have hanswered := Session.isAnswered_finish_iff hpolicy' hcredit'
    rw [hcredit']
    refine ⟨rfl, hbudget, hflight, fun len => ?_, fun len hrefused => ?_, ?_⟩
    · rw [hanswered, Nat.not_le]
      rfl
    · rcases (s.after actions).queue.credit_finish len with
        ⟨f, -, hsame⟩ | ⟨d, hresult, -⟩ | ⟨hkept, -⟩
      · exact hsame.trans hcredit'
      · exact absurd ⟨(), hresult⟩ hrefused
      · exact absurd hpolicy' hkept
    · exact fun hreports m hm len => Session.isAnswered_of_reportsOnce hpolicy hcredit hreports hm
  · have hcredit := Session.unmetered_after (Queue.create_of_not_meters hs hunmetered) actions
    rw [hcredit]
    refine ⟨rfl, rfl, fun len f hfault => ?_⟩
    rcases Queue.fault_finish hfault with hf | hback
    · exact hf
    · rw [hcredit] at hback
      cases hback
  · have hmay := Moment.mayFault (m := ⟨s.after actions, a⟩) hfault
    generalize hf : Fault.creditOverdrawn len available = f at hmay
    cases hmay with
    | overreturned hback =>
      obtain ⟨inFlight, hover⟩ := Credit.giveBack_eq_error hback
      cases hf.trans hover
    | _ => cases hf

/-- The second task waits until the bytes of the first are reported. -/
def coveredRun : List Action :=
  [.submit { name := "conv", key := 1, priority := -1, len := 20 },
    .submit { name := "fc", key := 2, priority := -2, len := 16 },
    .dispatch, .dispatch, .finish 20, .dispatch]

/-- The configuration of an account of 32 bytes. -/
def smallBudget : QueueConfig := { partitionBound := 16, creditMultiplier := some 2 }

/-- A session around a fresh queue that is metered by `smallBudget`. -/
def meteredReduction : Session where
  queue :=
    { stage := .reduce, strategy := .plain, gated := true, scanned := { ordered := true }
      credit := .metered 32 0, policy := .plain }

theorem credit_conserved_coveredRun :
    Queue.create .reduce smallBudget { signalRoot := true } = .ok meteredReduction.queue ∧
      smallBudget.Meters .reduce { signalRoot := true } ∧
      meteredReduction.ReportsOnce coveredRun ∧
      (meteredReduction.after coveredRun).queue.credit.available +
        (meteredReduction.after coveredRun).queue.credit.inFlight = 32 ∧
      (∀ m ∈ meteredReduction.history coveredRun, ∀ len, m.action = .finish len →
        m.outcome.IsAnswered) ∧
      ¬ ((meteredReduction.after coveredRun).finish 25).IsAnswered := by
  have hs : Queue.create .reduce smallBudget { signalRoot := true } =
      .ok meteredReduction.queue := rfl
  have hmeters : smallBudget.Meters .reduce { signalRoot := true } := ⟨rfl, rfl, by decide⟩
  have hreports : meteredReduction.ReportsOnce coveredRun := by
    intro earlier hprefix
    refine ⟨if earlier.length ≤ 4 then [] else
      [{ name := "conv", key := 1, priority := -1, len := 20 }], ?_⟩
    have hall : ∀ es ∈ coveredRun.inits,
        (meteredReduction.history es).filterMap Moment.report? =
          List.map Task.len (if es.length ≤ 4 then [] else
            [{ name := "conv", key := 1, priority := -1, len := 20 }]) ∧
        (if es.length ≤ 4 then [] else
          [{ name := "conv", key := 1, priority := -1, len := 20 }]) <+~
            (meteredReduction.history es).filterMap Moment.returned? := by
      decide +kernel
    exact hall earlier ((List.mem_inits _ _).mpr hprefix)
  obtain ⟨hmetered, -, -⟩ := credit_conserved hs coveredRun
  obtain ⟨-, hbudget, -, hrefused, -, hanswered⟩ := hmetered hmeters
  have hflight : (meteredReduction.after coveredRun).queue.credit.inFlight = 16 := by
    decide +kernel
  exact ⟨hs, hmeters, hreports, hbudget, hanswered hreports,
    (hrefused 25).mpr (by rw [hflight]; decide)⟩

end TensorDispatch
