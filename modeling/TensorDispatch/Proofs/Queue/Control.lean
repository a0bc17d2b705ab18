import TensorDispatch.Proofs.Queue.Batch

/-!
# Control traffic

A push queue with a strategy keeps gradients and all other tasks, its **controls**, apart: the
policy holds the gradients, and controls are scanned for.

* `Session.dispatch_policy_cases` — a dispatch asks the policy first, and the controls if it lets
  nothing go;
* `Queue.Separates` — the two kinds of task are kept apart, and no action mixes them
  (`Moment.separates_after`);
* `Session.Lines` — the controls that wait stand in the order of their submissions. A dispatch that
  hands no gradient over takes the first of them that is admitted (`Session.Lines.dispatch`).
-/

namespace TensorDispatch

/-- The counters that only the polls of a policy change. -/
def Stats.polled (s : Stats) : Stats :=
  { s with submitted := 0, dispatched := 0, finished := 0, peakPending := 0 }

@[simp] theorem Stats.polled_countSubmitted (s : Stats) : s.countSubmitted.polled = s.polled := rfl

@[simp] theorem Stats.polled_notePending (n : Nat) (s : Stats) :
    (s.notePending n).polled = s.polled := rfl

@[simp] theorem Stats.polled_countDispatched (s : Stats) :
    s.countDispatched.polled = s.polled := rfl

@[simp] theorem Stats.polled_countFinished (s : Stats) : s.countFinished.polled = s.polled := rfl

theorem Stats.polled_eq_iff {s s' : Stats} :
    s.polled = s'.polled ↔ s.barrierBlocks = s'.barrierBlocks ∧ s.windowRolls = s'.windowRolls ∧
      s.iterations = s'.iterations := by
  simp [polled]

/-! ### Actions on a queue with a policy -/

namespace Queue

variable {q : Queue} {t : Task}

/-- A named gradient joins the policy. -/
theorem submit_gradient (h : t.isGradient = true) (hname : t.name ≠ "")
    (hpolicy : q.policy ≠ .plain) (now : Int) :
    (q.submit now t).state.policy = q.policy.join now t ∧
      (q.submit now t).state.scanned = q.scanned ∧
      (q.submit now t).state.stats.polled = q.stats.polled := by
  rw [state_submit_of_named hname, state_place_gradient h hpolicy]
  refine ⟨rfl, rfl, ?_⟩
  dsimp only
  split <;> rfl

/-- A named control is scanned for. -/
theorem submit_control (h : t.isGradient = false) (hname : t.name ≠ "") (now : Int) :
    (q.submit now t).state.policy = q.policy ∧
      (q.submit now t).state.scanned = q.scanned.insert t ∧
      (q.submit now t).state.stats.polled = q.stats.polled ∧ (q.submit now t).IsAnswered := by
  refine ⟨?_, ?_, ?_, ?_⟩
  · rw [state_submit_of_named hname, place_control h]
    rfl
  · rw [state_submit_of_named hname, place_control h]
    rfl
  · rw [state_submit_of_named hname, place_control h]
    rfl
  · have hnamed : ¬ t.name.isEmpty = true := by simpa using hname
    rw [submit, if_neg hnamed, place_control h]
    exact ⟨(), rfl⟩

theorem mem_tasks_join {p : Policy} {now : Int} {t u : Task} (h : u ∈ (p.join now t).tasks) :
    u = t ∨ u ∈ p.tasks := by
  have hinsert : ∀ {s : Pending}, u ∈ (s.insert t).tasks → u = t ∨ u ∈ s.tasks := by
    intro s hu
    exact List.mem_cons.mp ((s.perm_insert t).mem_iff.mp hu)
  cases p with
  | plain => exact .inr h
  | replay r =>
    rcases List.mem_append.mp h with h | h
    · exact (hinsert h).imp_right (List.mem_append_left _)
    · exact .inr (List.mem_append_right _ h)
  | throttle w =>
    have hheard := w.pending_heard now t
    simp only [Policy.join, Policy.tasks, Policy.pendingTasks, Policy.stagedTasks,
      List.append_nil] at h ⊢
    by_cases haccepts : w.Accepts now t
    · rw [Throttle.submit_of_accepts haccepts] at h
      rw [← hheard]
      exact hinsert h
    · rw [Throttle.submit_of_not_accepts haccepts, Outcome.state_refused, hheard] at h
      exact .inr h

end Queue

namespace Queue

variable (q : Queue) (readiness : Readiness)

/-- The first admitted scanned task leaves, if there is one. -/
theorem chooseScanned_eq :
    q.chooseScanned readiness =
      (q.scanned.tasks.find? (q.admits readiness),
        { q with
          scanned := { q.scanned with tasks := q.scanned.tasks.eraseP (q.admits readiness) } }) := by
  unfold chooseScanned
  split
  · rename_i htake
    have hnone : q.scanned.tasks.find? (q.admits readiness) = none :=
      Option.map_eq_none_iff.mp htake
    have hkept : q.scanned.tasks.eraseP (q.admits readiness) = q.scanned.tasks :=
      List.eraseP_of_forall_not (List.find?_eq_none.mp hnone)
    rw [hnone, hkept]
  · rename_i t scanned htake
    obtain ⟨hfound, rfl⟩ := Pending.takeFirst?_eq_some htake
    rw [hfound]

/-- A choice ends as that of the policy does, unless the policy lets nothing go. -/
theorem choose_eq (now : Int) :
    q.choose readiness now =
      match q.chooseGradient readiness now with
      | ⟨.ok none, q'⟩ =>
        .answered (q.scanned.tasks.find? (q.admits readiness))
          { q' with
            scanned := { q.scanned with tasks := q.scanned.tasks.eraseP (q.admits readiness) } }
      | other => other := by
  obtain ⟨policy, stats, hstate, -⟩ := (q.chooseGradient_spec readiness now).1
  unfold choose
  rcases hasked : q.chooseGradient readiness now with ⟨f | _ | t, q'⟩
  · rfl
  · rw [hasked] at hstate
    cases (show q' = _ from hstate)
    dsimp only
    rw [chooseScanned_eq]
    rfl
  · rfl

end Queue

namespace Session

/-- A dispatch asks the policy first. If it lets no gradient go, the first admitted task among the
scanned ones leaves. -/
theorem dispatch_policy_cases (s : Session) :
    let asked := s.queue.chooseGradient s.readiness s.now
    let found := s.queue.scanned.tasks.find? (s.queue.admits s.readiness)
    s.dispatch.state.queue.policy = asked.state.policy ∧
      s.dispatch.state.queue.stats.polled = asked.state.stats.polled ∧
      ((∃ f, asked.result = .error f ∧ s.dispatch.result = .error f ∧
          s.dispatch.state.queue.scanned = s.queue.scanned) ∨
        (∃ t, asked.result = .ok (some t) ∧ s.dispatch.result = .ok (some t.released) ∧
          s.dispatch.state.queue.scanned = s.queue.scanned) ∨
        asked.result = .ok none ∧ s.dispatch.result = .ok (found.map Task.released) ∧
          s.dispatch.state.queue.scanned =
            { s.queue.scanned with
              tasks := s.queue.scanned.tasks.eraseP (s.queue.admits s.readiness) }) := by
  intro asked found
  -- an answered dispatch shows what its choice shows
  have hends : ∀ {t q}, s.queue.choose s.readiness s.now = .answered t q →
      s.dispatch.result = .ok (t.map Task.released) ∧ s.dispatch.state.queue.policy = q.policy ∧
        s.dispatch.state.queue.scanned = q.scanned ∧
        s.dispatch.state.queue.stats.polled = q.stats.polled := by
    intro t q hchoose
    rcases s.dispatch_cases with
      ⟨f, q', hchoose', -⟩ | ⟨q', hchoose', hdispatch⟩ |
        ⟨u, q', credit, s', hchoose', -, -, hdispatch, hq⟩
    · cases hchoose.symm.trans hchoose'
    · cases hchoose.symm.trans hchoose'
      rw [hdispatch]
      exact ⟨rfl, rfl, rfl, rfl⟩
    · cases hchoose.symm.trans hchoose'
      rw [hdispatch, Outcome.state_answered, hq]
      exact ⟨rfl, rfl, rfl, rfl⟩
  obtain ⟨policy, stats, hstate, -⟩ := (s.queue.chooseGradient_spec s.readiness s.now).1
  have hchoose := s.queue.choose_eq s.readiness s.now
  rcases hasked : asked with ⟨f | _ | t, q⟩
  · rw [show s.queue.chooseGradient s.readiness s.now = _ from hasked] at hchoose hstate
    have hrefused : s.dispatch = .refused f { s with queue := q } := by
      simp only [dispatch, hchoose]
    have hscanned : q.scanned = s.queue.scanned := by rw [show q = _ from hstate]
    rw [hrefused]
    exact ⟨rfl, rfl, .inl ⟨f, rfl, rfl, hscanned⟩⟩
  · rw [show s.queue.chooseGradient s.readiness s.now = _ from hasked] at hchoose
    obtain ⟨hresult, hpolicy, hscanned, hpolled⟩ := hends hchoose
    exact ⟨hpolicy, hpolled, .inr (.inr ⟨rfl, hresult, hscanned⟩)⟩
  · rw [show s.queue.chooseGradient s.readiness s.now = _ from hasked] at hchoose hstate
    obtain ⟨hresult, hpolicy, hscanned, hpolled⟩ := hends hchoose
    exact ⟨hpolicy, hpolled, .inr (.inl ⟨t, rfl, hresult, by
      rw [hscanned, show q = _ from hstate]⟩)⟩

end Session

/-! ### Gradients and controls -/

/-- A queue with a policy that holds all gradients. Its other tasks, the controls, wait in the order
of their arrival, and no credit is counted. -/
structure Queue.Separates (q : Queue) : Prop where
  policy : q.policy ≠ .plain
  credit : q.credit = .unmetered
  arrival : q.scanned.ordered = false
  gradients : ∀ t ∈ q.policy.tasks, t.isGradient = true
  controls : ∀ t ∈ q.scanned.tasks, t.isGradient = false

namespace Moment

/-- The control that enters the queue. -/
def submittedControl? (m : Moment) : Option Task := m.submitted?.filter fun t => !t.isGradient

/-- The control that is handed over. -/
def returnedControl? (m : Moment) : Option Task := m.returned?.filter fun t => !t.isGradient

/-- What an action can do to the controls that wait. -/
inductive OnControls (m : Moment) (controls : Pending) : Pending → Prop
  /-- A control joins them. -/
  | joined {t : Task} (haction : m.action = .submit t) (hcontrol : t.isGradient = false)
      (hsubmitted : m.submittedControl? = some t) (hreturned : m.returnedControl? = none) :
      OnControls m controls (controls.insert t)
  /-- The first admitted one leaves. -/
  | left {t : Task}
      (hfound : controls.tasks.find? (m.before.queue.admits m.before.readiness) = some t)
      (hsubmitted : m.submittedControl? = none)
      (hreturned : m.returnedControl? = some t.released) :
      OnControls m controls
        { controls with
          tasks := controls.tasks.eraseP (m.before.queue.admits m.before.readiness) }
  /-- They are not concerned. -/
  | other (hsubmitted : m.submittedControl? = none) (hreturned : m.returnedControl? = none) :
      OnControls m controls controls

private theorem submit_onControls (s : Session) {t : Task} (h : s.queue.policy ≠ .plain) :
    OnControls ⟨s, .submit t⟩ s.queue.scanned (after ⟨s, .submit t⟩).queue.scanned := by
  have hreturned : returnedControl? ⟨s, .submit t⟩ = none := by simp [returnedControl?]
  rw [queue_after_submit]
  by_cases hname : t.name = ""
  · have hsubmitted : submittedControl? ⟨s, .submit t⟩ = none := by
      simp [submittedControl?, submitted?, Queue.submit_of_unnamed hname, Except.map]
    rw [Queue.submit_of_unnamed hname]
    exact .other hsubmitted hreturned
  · cases ht : t.isGradient with
    | true =>
      have hsubmitted : submittedControl? ⟨s, .submit t⟩ = none := by
        cases hresult : (s.queue.submit s.now t).result <;>
          simp [submittedControl?, submitted?, hresult, Except.map, ht]
      rw [(Queue.submit_gradient ht hname h s.now).2.1]
      exact .other hsubmitted hreturned
    | false =>
      obtain ⟨-, hscanned, -, _, hresult⟩ := Queue.submit_control (q := s.queue) ht hname s.now
      have hsubmitted : submittedControl? ⟨s, .submit t⟩ = some t := by
        simp [submittedControl?, submitted?, hresult, Except.map, ht]
      rw [hscanned]
      exact .joined rfl ht hsubmitted hreturned

private theorem dispatch_onControls {s : Session} (h : s.queue.Separates) :
    OnControls ⟨s, .dispatch⟩ s.queue.scanned (after ⟨s, .dispatch⟩).queue.scanned := by
  have hperm := (s.queue.chooseGradient_spec s.readiness s.now).2.1
  obtain ⟨-, -, hcase⟩ := s.dispatch_policy_cases
  rw [after, outcome_dispatch]
  rcases hcase with
    ⟨f, -, hresult, hscanned⟩ | ⟨t, hasked, hresult, hscanned⟩ | ⟨-, hresult, hscanned⟩
  · rw [hscanned]
    exact .other rfl (by simp [returnedControl?, returned?, hresult])
  · have ht : t.isGradient = true := by
      refine h.gradients t (hperm.mem_iff.mpr ?_)
      simp [Outcome.taken, hasked]
    rw [hscanned]
    exact .other rfl (by simp [returnedControl?, returned?, hresult, ht])
  · rw [hscanned]
    cases hfound : s.queue.scanned.tasks.find? (s.queue.admits s.readiness) with
    | none =>
      rw [List.eraseP_of_forall_not (List.find?_eq_none.mp hfound)]
      exact .other rfl (by simp [returnedControl?, returned?, hresult, hfound])
    | some t =>
      have ht : t.isGradient = false := h.controls t (List.mem_of_find?_eq_some hfound)
      exact .left hfound rfl (by simp [returnedControl?, returned?, hresult, hfound, ht])

theorem onControls {m : Moment} (h : m.before.queue.Separates) :
    m.OnControls m.before.queue.scanned m.after.queue.scanned := by
  obtain ⟨s, a⟩ := m
  cases a with
  | submit t => exact submit_onControls s h.policy
  | dispatch => exact dispatch_onControls h
  | dispatchKey key =>
    obtain ⟨f, hrefused⟩ := Session.dispatchKey_of_policy_ne_plain h.policy key
    rw [after, outcome_dispatchKey, hrefused]
    exact .other rfl (by simp [returnedControl?, returned?, hrefused])
  | finish len =>
    obtain ⟨credit, policy, hstate, -⟩ := s.queue.finish_spec len
    rw [queue_after_finish, hstate]
    exact .other rfl (by simp [returnedControl?])
  | change c =>
    rw [queue_after_change]
    exact .other rfl rfl

/-- The controls behind an action were there before it, except for one that it submits. -/
theorem mem_scanned_after {m : Moment} (h : m.before.queue.Separates) {t : Task}
    (ht : t ∈ m.after.queue.scanned.tasks) :
    t ∈ m.before.queue.scanned.tasks ∨ m.action = .submit t ∧ t.isGradient = false := by
  have hm := m.onControls h
  generalize m.after.queue.scanned = controls at hm ht
  cases hm with
  | @joined u haction hcontrol =>
    rcases List.mem_cons.mp ((m.before.queue.scanned.perm_insert u).mem_iff.mp ht) with rfl | ht
    · exact .inr ⟨haction, hcontrol⟩
    · exact .inl ht
  | left => exact .inl (List.mem_of_mem_eraseP ht)
  | other => exact .inl ht

/-- The gradients behind an action were there before it, except for one that it submits. -/
theorem mem_policy_after {m : Moment} (h : m.before.queue.policy ≠ .plain) {t : Task}
    (ht : t ∈ m.after.queue.policy.tasks) :
    t ∈ m.before.queue.policy.tasks ∨ m.action = .submit t ∧ t.isGradient = true := by
  obtain ⟨s, a⟩ := m
  cases a with
  | submit u =>
    rw [queue_after_submit] at ht
    by_cases hname : u.name = ""
    · rw [Queue.submit_of_unnamed hname] at ht
      exact .inl ht
    · cases hu : u.isGradient with
      | true =>
        rw [(Queue.submit_gradient hu hname h s.now).1] at ht
        rcases Queue.mem_tasks_join ht with rfl | ht
        · exact .inr ⟨rfl, hu⟩
        · exact .inl ht
      | false =>
        rw [(Queue.submit_control hu hname s.now).1] at ht
        exact .inl ht
  | dispatch =>
    rw [after, outcome_dispatch, s.dispatch_policy_cases.1] at ht
    have hperm := (s.queue.chooseGradient_spec s.readiness s.now).2.1
    exact .inl (hperm.mem_iff.mpr (List.mem_append_right _ ht))
  | dispatchKey key =>
    obtain ⟨f, hrefused⟩ := Session.dispatchKey_of_policy_ne_plain h key
    rw [after, outcome_dispatchKey, hrefused] at ht
    exact .inl ht
  | finish len =>
    obtain ⟨credit, policy, hstate, hpending, hstaged⟩ := s.queue.finish_spec len
    rw [queue_after_finish, hstate] at ht
    have htasks : policy.tasks = s.queue.policy.tasks := by
      rw [Policy.tasks, Policy.tasks, hpending, hstaged]
    exact .inl (htasks ▸ ht)
  | change c =>
    rw [queue_after_change] at ht
    exact .inl ht

/-- No action mixes the two kinds of task. -/
theorem separates_after {m : Moment} (h : m.before.queue.Separates) : m.after.queue.Separates where
  policy hplain := by
    rw [← Policy.sorts?_eq_none_iff, m.sorts?_after, Policy.sorts?_eq_none_iff] at hplain
    exact h.policy hplain
  credit := Session.unmetered_after h.credit [m.action]
  arrival := (Queue.ordered_eq_of_setup m.setup_after).trans h.arrival
  gradients t ht := (mem_policy_after h.policy ht).elim (h.gradients t) And.right
  controls t ht := (mem_scanned_after h ht).elim (h.controls t) And.right

end Moment

/-- A push queue with a strategy keeps gradients and controls apart. -/
theorem Queue.separates_of_create {config : QueueConfig} {role : Role} {q : Queue}
    (h : create .push config role = .ok q) (hstrategy : config.strategy ≠ .plain) :
    q.Separates := by
  obtain ⟨-, hpolicy, hq⟩ := create_eq_ok h
  have htasks := tasks_create h
  have hsorts := sorts?_policyOf hpolicy (by rwa [strategyAt, if_pos rfl])
  have hcredit : q.credit = .unmetered := create_of_not_meters h (by simp [QueueConfig.Meters])
  simp only [tasks, List.append_eq_nil_iff] at htasks
  refine ⟨fun hplain => ?_, hcredit, ?_, by simp [htasks.2], by simp [htasks.1]⟩
  · rw [Policy.sorts?_eq_none_iff.mpr hplain] at hsorts
    cases hsorts
  · rw [hq]
    simp [creditAt, Stage.usesCredit, Credit.ofBudget, Credit.isMetered]

/-! ### Controls in line -/

namespace Session

/-- The controls that wait, with the numbers of their submissions, are in line behind those that
have been handed over. -/
structure Lines (h : List Moment) (s : Session) (waiting taken : List (Task × Nat)) : Prop where
  separates : s.queue.Separates
  tasks : waiting.map Prod.fst = s.queue.scanned.tasks
  inLine : waiting.Sublist (h.filterMap Moment.submittedControl?).zipIdx
  accounted : (h.filterMap Moment.submittedControl?).zipIdx.Perm (waiting ++ taken)
  returned : h.filterMap Moment.returnedControl? = taken.map fun e => e.1.released

/-- One more moment keeps the controls in line. -/
theorem Lines.act {h : List Moment} {m : Moment} {waiting taken : List (Task × Nat)}
    (hbefore : Lines h m.before waiting taken) :
    ∃ waiting' taken', Lines (h ++ [m]) m.after waiting' taken' := by
  have hseparates := m.separates_after hbefore.separates
  have hm := m.onControls hbefore.separates
  generalize hafter : m.after.queue.scanned = controls at hm
  cases hm with
  | @joined t haction hcontrol hsubmitted hreturned =>
    set submitted := h.filterMap Moment.submittedControl?
    have hnumbered : (submitted ++ [t]).zipIdx = submitted.zipIdx ++ [(t, submitted.length)] := by
      simp [List.zipIdx_append]
    refine ⟨waiting ++ [(t, submitted.length)], taken, hseparates, ?_, ?_, ?_, ?_⟩
    · rw [hafter]
      simp [Pending.insert, hbefore.separates.arrival, hbefore.tasks]
    · rw [Moment.filterMap_concat, hsubmitted, Option.toList_some, hnumbered]
      exact hbefore.inLine.append (List.Sublist.refl _)
    · rw [Moment.filterMap_concat, hsubmitted, Option.toList_some, hnumbered, List.append_assoc]
      refine (hbefore.accounted.append_right _).trans ?_
      rw [List.append_assoc]
      exact List.perm_append_comm.append_left waiting
    · simp [hreturned, hbefore.returned]
  | @left t hfound hsubmitted hreturned =>
    set admits := m.before.queue.admits m.before.readiness
    rw [← hbefore.tasks, List.find?_map, Option.map_eq_some_iff] at hfound
    obtain ⟨e, hfound, rfl⟩ := hfound
    refine ⟨waiting.eraseP (admits ∘ Prod.fst), taken ++ [e], hseparates, ?_, ?_, ?_, ?_⟩
    · rw [hafter, ← hbefore.tasks, List.eraseP_map]
    · rw [Moment.filterMap_concat, hsubmitted, Option.toList_none, List.append_nil]
      exact List.eraseP_sublist.trans hbefore.inLine
    · rw [Moment.filterMap_concat, hsubmitted, Option.toList_none, List.append_nil]
      have htaken := (Pending.perm_eraseP_of_find? hfound).append_right taken
      refine (hbefore.accounted.trans htaken).trans ?_
      rw [List.cons_append, ← List.append_assoc]
      exact (List.perm_append_singleton e _).symm
    · simp [hreturned, hbefore.returned]
  | other hsubmitted hreturned =>
    refine ⟨waiting, taken, hseparates, by rw [hafter, hbefore.tasks], ?_, ?_, ?_⟩
    · simpa [Moment.filterMap_concat, hsubmitted] using hbefore.inLine
    · simpa [Moment.filterMap_concat, hsubmitted] using hbefore.accounted
    · simpa [Moment.filterMap_concat, hreturned] using hbefore.returned

/-- The controls of a run are in line. -/
theorem exists_lines {s : Session} (h : s.queue.Separates) (hempty : s.queue.scanned.tasks = [])
    (actions : List Action) :
    ∃ waiting taken, Lines (s.history actions) (s.after actions) waiting taken :=
  history_induction (I := fun h s => ∃ waiting taken, Lines h s waiting taken)
    ⟨[], [], h, by rw [hempty]; rfl, .slnil, .nil, rfl⟩ (fun _ _ ⟨_, _, hbefore⟩ => hbefore.act)
    actions

/-- A dispatch that is answered without a gradient hands over the first control in line that is
admitted, if there is one. -/
theorem Lines.dispatch {h : List Moment} {s : Session} {waiting taken : List (Task × Nat)}
    (hlines : Lines h s waiting taken) (hanswered : s.dispatch.IsAnswered)
    (hnone : Moment.returnedGradient? ⟨s, .dispatch⟩ = none) :
    s.dispatch.result =
      .ok ((waiting.find? fun e => s.queue.admits s.readiness e.1).map fun e => e.1.released) := by
  have hperm := (s.queue.chooseGradient_spec s.readiness s.now).2.1
  obtain ⟨-, -, hcase⟩ := s.dispatch_policy_cases
  rcases hcase with ⟨f, -, hresult, -⟩ | ⟨t, hasked, hresult, -⟩ | ⟨-, hresult, -⟩
  · obtain ⟨_, hok⟩ := hanswered
    cases hresult.symm.trans hok
  -- what the policy lets go is a gradient
  · have ht : t.isGradient = true := by
      refine hlines.separates.gradients t (hperm.mem_iff.mpr ?_)
      simp [Outcome.taken, hasked]
    simp [Moment.returnedGradient?, Moment.returned?, hresult, ht] at hnone
  · rw [hresult, ← hlines.tasks, List.find?_map, Option.map_map]
    rfl

end Session

end TensorDispatch
