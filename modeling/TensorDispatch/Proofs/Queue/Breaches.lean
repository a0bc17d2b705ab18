import TensorDispatch.Proofs.Conservation
import TensorDispatch.Proofs.Credit
import TensorDispatch.Proofs.Queue.Submission

/-!
# Broken contracts

A queue goes on after a refused call, so what the call leaves behind matters to its callers.

* `Fault.IsBreach` — the faults of a broken contract, arithmetic aside;
* `Moment.lost?` — the task that a refused dispatch by key has taken out of the queue already;
* `Moment.breach_cases` — what a call that breaks the contract leaves behind;
* `breach_keeps_holdings` — it leaves all that the queue holds, or all but the lost task. Along every
  run, what was submitted is in the queue, was handed over, or is lost;
* `not_keepsOnBreach_unreadyRun` — so a caller who survives such a call may have lost a task.
-/

namespace TensorDispatch

open scoped List

/-- A fault of a call that breaks the contract of a queue. The other faults are arithmetic that
leaves its range. -/
def Fault.IsBreach : Fault → Prop
  | sumOverflow | differenceOverflow | productOverflow | listTooLong => False
  | _ => True

/-! ### Operations -/

namespace Queue

variable {q : Queue} {f : Fault}

/-- A submission that breaks the contract is refused before it changes anything. -/
theorem state_submit_of_breach {now : Int} {t : Task} (h : (q.submit now t).result = .error f)
    (hbreach : f.IsBreach) : (q.submit now t).state = q := by
  by_cases hname : t.name = ""
  · rw [submit_of_unnamed hname]
    rfl
  · rw [fault_submit_of_named hname h] at hbreach
    exact hbreach.elim

/-- A refused submission puts no task into the queue and takes none out. -/
theorem tasks_submit_of_refused {now : Int} {t : Task} (h : (q.submit now t).result = .error f) :
    (q.submit now t).state.tasks = q.tasks := by
  by_cases hname : t.name = ""
  · rw [submit_of_unnamed hname]
    rfl
  · rw [result_submit_of_named hname] at h
    rw [state_submit_of_named hname]
    exact tasks_place_of_refused h

/-- A refused dispatch by key leaves the queue as it is, or without the first task with the key,
which is not ready. -/
theorem chooseKey_refused {readiness : Readiness} {key : Nat}
    (h : (q.chooseKey readiness key).result = .error f) :
    (q.chooseKey readiness key).state = q ∧ (∀ name, f ≠ .keyedUnready name) ∨
    ∃ t front back, q.scanned.tasks = front ++ t :: back ∧ (∀ u ∈ front, u.key ≠ key) ∧
      t.key = key ∧ readiness.isReady t = false ∧ f = .keyedUnready t.name ∧
      (q.chooseKey readiness key).state =
        { q with scanned := { q.scanned with tasks := front ++ back } } := by
  unfold chooseKey at h ⊢
  split at h
  · rename_i hmetered
    rw [if_pos hmetered]
    cases h
    exact .inl ⟨rfl, by simp⟩
  · rename_i hmetered
    rw [if_neg hmetered]
    split at h
    · rename_i hpolicy
      rw [if_pos hpolicy]
      cases h
      exact .inl ⟨rfl, by simp⟩
    · rename_i hpolicy
      rw [if_neg hpolicy]
      split at h
      · cases h
      · rename_i t scanned htake
        obtain ⟨hfound, rfl⟩ := Pending.takeFirst?_eq_some htake
        obtain ⟨front, back, hsplit, herase, hkey, hfront⟩ := Pending.exists_split_of_find? hfound
        cases hready : readiness.isReady t with
        | true => simp [hready] at h
        | false =>
          simp only [hready] at h
          cases h
          refine .inr ⟨t, front, back, hsplit, by simpa using hfront, by simpa using hkey, hready,
            rfl, ?_⟩
          simp [herase]

/-- A refused completion is counted and changes nothing else. -/
theorem state_finish_of_refused {len : Nat} (h : (q.finish len).result = .error f) :
    (q.finish len).state = { q with stats := q.stats.countFinished } := by
  have hcredit : ∀ {q : Queue}, (q.returnCredit len).result = .error f →
      (q.returnCredit len).state = q := by
    intro q h
    unfold returnCredit at h ⊢
    split at h
    · cases h
    · rfl
  simp only [finish] at h ⊢
  split
  · rename_i r hpolicy
    cases hseen : r.boundarySeen with
    | true =>
      cases hpermit : r.grantPermit with
      | ok permits => simp [hpolicy, hseen, hpermit] at h
      | error f' => simp
    | false =>
      simp only [hpolicy, hseen] at h
      rw [← hpolicy] at h
      exact hcredit h
  · rename_i hpolicy
    exact hcredit (by simpa [hpolicy] using h)

end Queue

/-! ### Moments -/

namespace Moment

/-- The task that a refused dispatch by key has taken out of the queue, for no one. -/
def lost? (m : Moment) : Option Task :=
  match m.action, m.outcome.result with
  | .dispatchKey key, .error (.keyedUnready _) =>
    m.before.queue.scanned.tasks.find? fun t => t.key == key
  | _, _ => none

/-- The action leaves all that the queue holds: the tasks that wait, the policy with its gradients
and its door, the credit and the table. Only counters may differ. -/
structure KeepsHoldings (m : Moment) : Prop where
  scanned : m.after.queue.scanned = m.before.queue.scanned
  policy : m.after.queue.policy = m.before.queue.policy
  credit : m.after.queue.credit = m.before.queue.credit
  readiness : m.after.readiness = m.before.readiness

theorem lost?_of_isAnswered {m : Moment} (h : m.outcome.IsAnswered) : m.lost? = none := by
  obtain ⟨_, h⟩ := h
  unfold lost?
  rw [h]
  split
  · rename_i heq
    cases heq
  · rfl

theorem lost?_of_ne_keyedUnready {m : Moment} {f : Fault} (h : m.outcome.result = .error f)
    (hready : ∀ name, f ≠ .keyedUnready name) : m.lost? = none := by
  unfold lost?
  rw [h]
  split
  · rename_i heq
    cases heq
    exact absurd rfl (hready _)
  · rfl

/-- A call that breaks the contract leaves all that the queue holds, or all but a task that was
asked for by its key before it was ready. -/
theorem breach_cases {m : Moment} {f : Fault} (h : m.outcome.result = .error f)
    (hbreach : f.IsBreach) :
    m.lost? = none ∧ (∀ name, f ≠ .keyedUnready name) ∧
      (∃ stats, m.after.queue = { m.before.queue with stats }) ∧
      m.after.readiness = m.before.readiness ∨
    ∃ t front back, m.lost? = some t ∧ m.action = .dispatchKey t.key ∧
      f = .keyedUnready t.name ∧ m.before.readiness.isReady t = false ∧
      m.before.queue.scanned.tasks = front ++ t :: back ∧ (∀ u ∈ front, u.key ≠ t.key) ∧
      m.after.queue = { m.before.queue with
        scanned := { m.before.queue.scanned with tasks := front ++ back } } ∧
      m.after.readiness = m.before.readiness := by
  obtain ⟨s, a⟩ := m
  cases a with
  | submit t =>
    have hfault : (s.queue.submit s.now t).result = .error f :=
      Outcome.result_map_eq_error_iff.mp h
    refine .inl ⟨rfl, ?_, ⟨s.queue.stats, Queue.state_submit_of_breach hfault hbreach⟩, rfl⟩
    rcases Queue.fault_submit hfault with rfl | rfl <;> simp
  | dispatch =>
    obtain ⟨q, hchoose, -⟩ := Session.dispatch_refused h
    rw [Queue.fault_choose (congrArg Outcome.result hchoose)] at hbreach
    exact hbreach.elim
  | dispatchKey key =>
    obtain ⟨scanned, hchoose, hdispatch⟩ := Session.dispatchKey_refused h
    have hafter : after ⟨s, .dispatchKey key⟩ =
        { s with queue := (s.queue.chooseKey s.readiness key).state } := by
      rw [after, outcome_dispatchKey, hdispatch, hchoose]
      rfl
    rw [hafter]
    rcases Queue.chooseKey_refused (congrArg Outcome.result hchoose) with
      ⟨hstate, hready⟩ | ⟨t, front, back, hsplit, hfront, rfl, hready, rfl, hstate⟩
    · exact .inl ⟨lost?_of_ne_keyedUnready h hready, hready, ⟨s.queue.stats, hstate⟩, rfl⟩
    · have hfound : s.queue.scanned.tasks.find? (fun u => u.key == t.key) = some t :=
        List.find?_eq_some_iff_append.mpr
          ⟨by simp, front, back, hsplit, by simpa using hfront⟩
      refine .inr ⟨t, front, back, ?_, rfl, rfl, hready, hsplit, hfront, hstate, rfl⟩
      unfold lost?
      rw [h]
      exact hfound
  | finish len =>
    have hfault : (s.queue.finish len).result = .error f := Outcome.result_map_eq_error_iff.mp h
    refine .inl ⟨rfl, ?_, ⟨_, Queue.state_finish_of_refused hfault⟩, rfl⟩
    rcases Queue.fault_finish hfault with rfl | hback
    · simp
    · obtain ⟨inFlight, rfl⟩ := Credit.giveBack_eq_error hback
      simp
  | change c => cases h

/-- A refused call takes a lost task out of the queue, and no other. -/
theorem perm_of_refused {m : Moment} {f : Fault} (h : m.outcome.result = .error f) :
    m.before.queue.tasks ~ m.after.queue.tasks ++ m.lost?.toList := by
  by_cases hbreach : f.IsBreach
  · rcases breach_cases h hbreach with
      ⟨hlost, -, ⟨stats, hqueue⟩, -⟩ | ⟨t, front, back, hlost, -, -, -, hsplit, -, hqueue, -⟩
    · rw [hlost, hqueue]
      simp [Queue.tasks]
    · rw [hlost, hqueue, List.perm_iff_count]
      intro u
      simp only [Queue.tasks, hsplit, List.count_append, List.count_cons, Option.toList_some,
        List.count_nil]
      omega
  -- arithmetic refuses a call before it takes a task out
  · obtain ⟨s, a⟩ := m
    cases a with
    | submit t =>
      have hfault : (s.queue.submit s.now t).result = .error f :=
        Outcome.result_map_eq_error_iff.mp h
      simp [lost?, Queue.tasks_submit_of_refused hfault]
    | dispatch =>
      obtain ⟨q, hchoose, hdispatch⟩ := Session.dispatch_refused h
      have hspec := s.queue.choose_spec s.readiness s.now
      rw [hchoose] at hspec
      simpa [after, hdispatch, lost?] using hspec.2.1
    | dispatchKey key =>
      obtain ⟨scanned, hchoose, -⟩ := Session.dispatchKey_refused h
      rcases Queue.fault_chooseKey (congrArg Outcome.result hchoose) with rfl | rfl | ⟨name, rfl⟩ <;>
        exact absurd trivial hbreach
    | finish len =>
      have hfault : (s.queue.finish len).result = .error f := Outcome.result_map_eq_error_iff.mp h
      rw [queue_after_finish, Queue.state_finish_of_refused hfault]
      simp [lost?, Queue.tasks]
    | change c => cases h

/-- The balance of an action, refused ones included: a task that enters or was there is there,
is handed over or is lost. -/
theorem exists_taken (m : Moment) :
    ∃ taken : List Task, m.returned?.toList = taken.map Task.released ∧
      m.submitted?.toList ++ m.before.queue.tasks ~
        m.after.queue.tasks ++ (taken ++ m.lost?.toList) := by
  cases hresult : m.outcome.result with
  | ok answer =>
    obtain ⟨taken, hreturned, hbalance⟩ := balance ⟨answer, hresult⟩
    refine ⟨taken, hreturned, ?_⟩
    rw [lost?_of_isAnswered ⟨answer, hresult⟩]
    simpa using hbalance.tasks
  | error f =>
    have hreturned : m.returned? = none := by rw [returned?, hresult]
    have hsubmitted : m.submitted? = none := by
      unfold submitted?
      rw [hresult]
      split
      · rename_i heq
        cases heq
      · rfl
    refine ⟨[], by simp [hreturned], ?_⟩
    rw [hsubmitted]
    exact perm_of_refused hresult

end Moment

/-! ### Runs -/

namespace Session

/-- Every call of a run that breaks the contract leaves all that the queue holds. -/
def KeepsOnBreach (s : Session) (actions : List Action) : Prop :=
  ∀ m ∈ s.history actions, ∀ f, m.outcome.result = .error f → f.IsBreach → m.KeepsHoldings

/-- What was submitted in a run is in the queue, was handed over, or is lost. -/
theorem exists_taken_after {s : Session} (htasks : s.queue.tasks = []) (actions : List Action) :
    ∃ taken : List Task,
      (s.history actions).filterMap Moment.returned? = taken.map Task.released ∧
      (s.history actions).filterMap Moment.submitted? ~
        (s.after actions).queue.tasks ++
          (taken ++ (s.history actions).filterMap Moment.lost?) := by
  refine history_induction
    (I := fun h s' => ∃ taken : List Task, h.filterMap Moment.returned? = taken.map Task.released ∧
      h.filterMap Moment.submitted? ~ s'.queue.tasks ++ (taken ++ h.filterMap Moment.lost?))
    ⟨[], rfl, by simp [htasks]⟩ ?_ actions
  rintro h m ⟨taken, hreturned, hperm⟩
  obtain ⟨more, hmore, hmoment⟩ := m.exists_taken
  refine ⟨taken ++ more, ?_, ?_⟩
  · rw [Moment.filterMap_concat, hreturned, hmore, List.map_append]
  -- what was held before the last action cancels between the two balances
  · rw [List.perm_iff_count] at hperm hmoment ⊢
    intro t
    have hbefore := hperm t
    have hlast := hmoment t
    simp only [Moment.filterMap_concat, List.count_append] at hbefore hlast ⊢
    omega

end Session

/-- **Broken contracts.** In every run, a call that breaks the contract of the queue leaves all that
the queue holds, unless it asks by its key for a task that is not ready. Then this task is gone, the
first pending one with the key, and all else is as it was. So what has been submitted is in the
queue, was handed over, or is lost to such a call. -/
theorem breach_keeps_holdings {stage : Stage} {config : QueueConfig} {role : Role} {s : Session}
    (hs : Queue.create stage config role = .ok s.queue) (actions : List Action) :
    (∀ m ∈ s.history actions, ∀ f, m.outcome.result = .error f → f.IsBreach →
      (m.KeepsHoldings ↔ ∀ name, f ≠ .keyedUnready name) ∧
      (m.lost? = none ↔ ∀ name, f ≠ .keyedUnready name) ∧
      ∀ t, m.lost? = some t → ∃ front back,
        m.action = .dispatchKey t.key ∧ f = .keyedUnready t.name ∧
        m.before.readiness.isReady t = false ∧
        m.before.queue.scanned.tasks = front ++ t :: back ∧ (∀ u ∈ front, u.key ≠ t.key) ∧
        m.after.queue = { m.before.queue with
          scanned := { m.before.queue.scanned with tasks := front ++ back } } ∧
        m.after.readiness = m.before.readiness) ∧
    ∃ taken : List Task,
      (s.history actions).filterMap Moment.returned? = taken.map Task.released ∧
      (s.history actions).filterMap Moment.submitted? ~
        (s.after actions).queue.tasks ++
          (taken ++ (s.history actions).filterMap Moment.lost?) := by
  refine ⟨?_, Session.exists_taken_after (Queue.tasks_create hs) actions⟩
  intro m _ f hfault hbreach
  rcases Moment.breach_cases hfault hbreach with
    ⟨hlost, hready, ⟨stats, hqueue⟩, hreadiness⟩ |
      ⟨t, front, back, hlost, haction, rfl, hready, hsplit, hfront, hqueue, hreadiness⟩
  · have hkeeps : m.KeepsHoldings := by
      refine ⟨?_, ?_, ?_, hreadiness⟩ <;> rw [hqueue]
    exact ⟨iff_of_true hkeeps hready, iff_of_true hlost hready, by simp [hlost]⟩
  · have hgone : ¬ m.KeepsHoldings := by
      intro hkeeps
      have hlength := congrArg (fun p => p.tasks.length) hkeeps.scanned
      simp [hqueue, hsplit] at hlength
    refine ⟨by simp [hgone], by simp [hlost], ?_⟩
    intro u hu
    cases hlost.symm.trans hu
    exact ⟨front, back, haction, rfl, hready, hsplit, hfront, hqueue, hreadiness⟩

/-- A session around a fresh queue that scans for its tasks. -/
def plainPull : Session where
  queue :=
    { stage := .pull, strategy := .plain, gated := false, scanned := { ordered := false }
      credit := .unmetered, policy := .plain }

/-- Of two tasks, the first is asked for by its key before its flag is raised. -/
def unreadyRun : List Action :=
  [.submit { name := "", key := 3, priority := 0, len := 1 },
    .submit { name := "fc", key := 1, priority := 0, len := 8, flag := some "ready" },
    .submit { name := "conv", key := 2, priority := 0, len := 16 },
    .dispatchKey 1, .change (.raise "ready"), .dispatch, .dispatch]

theorem breach_keeps_holdings_unreadyRun :
    Queue.create .pull {} {} = .ok plainPull.queue ∧
      Moment.KeepsHoldings
        ⟨plainPull, .submit { name := "", key := 3, priority := 0, len := 1 }⟩ ∧
      ∃ taken : List Task, taken.map Task.key = [2] ∧
        (plainPull.history unreadyRun).filterMap Moment.submitted? ~
          taken ++ (plainPull.history unreadyRun).filterMap Moment.lost? := by
  have hs : Queue.create .pull {} {} = .ok plainPull.queue := rfl
  obtain ⟨hbreaches, taken, hreturned, hperm⟩ := breach_keeps_holdings hs unreadyRun
  have hunnamed := hbreaches _ List.mem_cons_self (.unnamedTask 3) rfl trivial
  have hkeys : taken.map Task.key = [2] := by
    calc taken.map Task.key = (taken.map Task.released).map Task.key := by simp [Task.released]
      _ = ((plainPull.history unreadyRun).filterMap Moment.returned?).map Task.key := by
        rw [← hreturned]
      _ = [2] := by decide +kernel
  have hempty : (plainPull.after unreadyRun).queue.tasks = [] := by decide +kernel
  rw [hempty] at hperm
  exact ⟨hs, hunnamed.1.mpr (by simp), taken, hkeys, hperm⟩

theorem not_keepsOnBreach_unreadyRun :
    Queue.create .pull {} {} = .ok plainPull.queue ∧
      ((plainPull.history unreadyRun).filterMap Moment.submitted?).map Task.key = [1, 2] ∧
      ((plainPull.history unreadyRun).filterMap Moment.returned?).map Task.key = [2] ∧
      (plainPull.after unreadyRun).queue.tasks = [] ∧
      ¬ plainPull.KeepsOnBreach unreadyRun := by
  refine ⟨rfl, by decide +kernel, by decide +kernel, by decide +kernel, fun hkeeps => ?_⟩
  have hmem : (⟨plainPull.after (unreadyRun.take 3), .dispatchKey 1⟩ : Moment) ∈
      plainPull.history unreadyRun := List.mem_of_getElem? (i := 3) rfl
  have hscanned := (hkeeps _ hmem (.keyedUnready "fc") rfl trivial).scanned
  have hsize := congrArg Pending.size hscanned
  revert hsize
  decide +kernel

end TensorDispatch
