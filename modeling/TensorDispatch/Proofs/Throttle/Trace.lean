import TensorDispatch.Proofs.Replay.Trace

/-!
# Traces of a throttle

What happens inside a throttle while its callers submit, dispatch and report, in a run without
faults.

* `Throttle.restarted`, `Throttle.releasing`, `Throttle.nextWindow` — the timeline starts over, a
  gradient leaves, and the next window is entered;
* `Queue.Throttles` — the queue meters its gradients: all of them are with the throttle, and none
  is scanned for;
* `Moment.OnThrottle` — what one action does to such a queue. `Moment.onThrottle` is the one place
  that looks into the operations; invariants of throttles are case analyses of it.
-/

namespace TensorDispatch

/-! ### Throttles -/

namespace Throttle

/-- The throttle whose timeline starts at this instant. -/
def restarted (now : Int) (w : Throttle) : Throttle :=
  { w with index := 0, budget := w.fullBudget, deadline := now + w.lengths.headD 0 }

/-- The throttle with one more gradient that waits. -/
def waiting (t : Task) (w : Throttle) : Throttle := { w with pending := w.pending.insert t }

/-- The throttle in its next window. -/
def nextWindow (w : Throttle) : Throttle :=
  { w with
    index := w.index + 1
    budget := w.fullBudget
    deadline := w.deadline + w.lengths[w.index + 1]?.getD 0 }

/-- The throttle that a gradient leaves, with the gradients behind it. -/
def releasing (t : Task) (later : List Task) (w : Throttle) : Throttle :=
  { w with pending := { w.pending with tasks := later }, budget := w.budget - t.len }

/-- What a throttle is made for. -/
def plan (w : Throttle) : List Int × Nat × Option String := (w.lengths, w.fullBudget, w.headName)

variable {w : Throttle}

theorem isHead_eq_true_iff {name : String} :
    w.isHead name = true ↔
      ∃ part, w.headName = some part ∧ part ≠ "" ∧ Text.occurs part name = true := by
  cases hhead : w.headName with
  | none => simp [isHead, hhead]
  | some part => simp [isHead, hhead]

theorem restart_of_isAnswered {now : Int} (h : (w.restart now).IsAnswered) :
    w.restart now = .answered () (w.restarted now) := by
  unfold restart at h ⊢
  cases hdeadline : addSigned now (w.lengths.headD 0) with
  | error f =>
    simp only [hdeadline] at h
    exact absurd h (Outcome.not_isAnswered_refused _ _)
  | ok deadline =>
    simp only [hdeadline, addSigned_eq_ok hdeadline]
    rfl

/-- Accepting a gradient restarts the timeline if it is the head of an iteration. -/
theorem submit_of_isAnswered {now : Int} {t : Task} (h : (w.submit now t).IsAnswered) :
    w.submit now t =
      .answered () ((if w.isHead t.name then w.restarted now else w).waiting t) := by
  unfold submit at h ⊢
  split
  · rename_i hhead
    have hrestart : (w.restart now).IsAnswered := by
      rcases hresult : w.restart now with ⟨f | _, w'⟩
      · simp [hhead, hresult] at h
      · exact ⟨(), rfl⟩
    rw [restart_of_isAnswered hrestart]
    rfl
  · rfl

theorem roll_of_isAnswered (h : w.roll.IsAnswered) : w.roll = .answered () w.nextWindow := by
  unfold roll at h ⊢
  cases hlength : w.lengths[w.index + 1]? with
  | none => simp [hlength, nextWindow]
  | some length =>
    cases hdeadline : addSigned w.deadline length with
    | error f => simp [hlength, hdeadline] at h
    | ok deadline => simp [hlength, hdeadline, nextWindow, addSigned_eq_ok hdeadline]

/-- An answered poll changes nothing, enters the next window, or lets the first gradient go. -/
theorem poll_of_isAnswered {admits : Task → Bool} {now : Int} {stats : Stats}
    (h : (w.poll admits now stats).IsAnswered) :
    w.poll admits now stats = .answered none (w, stats) ∨
    (w.IsExpired now ∧ w.poll admits now stats = .answered none (w.nextWindow, stats.countRoll)) ∨
    ∃ t later, w.pending.tasks = t :: later ∧ ¬ w.IsExpired now ∧ w.hasRoom t.len = true ∧
      w.poll admits now stats = .answered (some t) (w.releasing t later, stats) := by
  unfold poll at h ⊢
  split
  · exact .inl rfl
  · rename_i hwaiting
    split
    · rename_i hexpired
      have hroll : w.roll.IsAnswered := by
        rcases hresult : w.roll with ⟨f | _, w'⟩
        · simp [hwaiting, hexpired, hresult] at h
        · exact ⟨(), rfl⟩
      rw [roll_of_isAnswered hroll]
      exact .inr (.inl ⟨hexpired, rfl⟩)
    · rename_i hrunning
      cases htasks : w.pending.tasks with
      | nil => simp [htasks] at hwaiting
      | cons t later =>
        by_cases hleaves : (w.hasRoom t.len && admits t) = true
        · have hroom : w.hasRoom t.len = true := by simp_all
          refine .inr (.inr ⟨t, later, rfl, hrunning, hroom, ?_⟩)
          simp only [releaseFirst, htasks, hleaves, if_true]
          rfl
        · refine .inl ?_
          simp only [releaseFirst, htasks, hleaves]
          rfl

end Throttle

/-! ### Queues that meter their gradients -/

/-- The queue meters all its gradients. -/
structure Queue.Throttles (q : Queue) (w : Throttle) : Prop where
  policy : q.policy = .throttle w
  gradients : ∀ t ∈ w.pending.tasks, t.isGradient = true
  scanned : ∀ t ∈ q.scanned.tasks, t.isGradient = false

/-- The window that a queue with a throttle is in. -/
def Queue.window? (q : Queue) : Option Nat :=
  match q.policy with
  | .throttle w => some w.index
  | _ => none

namespace Queue

variable {q : Queue} {w : Throttle}

theorem window?_of_policy (h : q.policy = .throttle w) : q.window? = some w.index := by
  simp [window?, h]

theorem Throttles.window? (h : q.Throttles w) : q.window? = some w.index :=
  window?_of_policy h.policy

/-- A push queue with the time-window strategy meters its gradients by its plan. -/
theorem throttles_create {config : QueueConfig} {role : Role} {plan : WindowPlan}
    (h : create .push config role = .ok q) (hstrategy : config.strategy = .timeWindow)
    (hwindow : config.window = some plan) :
    q.Throttles (.start plan config.beginName) := by
  obtain ⟨-, hpolicy, hq⟩ := create_eq_ok h
  have hscanned : q.scanned.tasks = [] := by rw [hq]
  have hfollowed : strategyAt .push config = .timeWindow := by
    rw [strategyAt, if_pos rfl, hstrategy]
  have hthrottle : policyOf .timeWindow config = .ok (.throttle (.start plan config.beginName)) :=
    policyOf_eq_ok_iff.mpr (.inr (.inr ⟨plan, rfl, hwindow, rfl⟩))
  rw [hfollowed, hthrottle, Except.ok.injEq] at hpolicy
  exact ⟨hpolicy.symm, by simp [Throttle.start], by simp [hscanned]⟩

/-- An accepted gradient waits with the throttle, and any other accepted task is scanned for. -/
theorem submit_throttle (h : q.policy = .throttle w) {now : Int} {t : Task}
    (hanswered : (q.submit now t).IsAnswered) :
    (q.submit now t).state.stats.windowRolls = q.stats.windowRolls ∧
      (t.isGradient = true ∧ (q.submit now t).state.scanned = q.scanned ∧
          (q.submit now t).state.policy =
            .throttle ((if w.isHead t.name then w.restarted now else w).waiting t) ∨
        t.isGradient = false ∧ (q.submit now t).state.scanned = q.scanned.insert t ∧
          (q.submit now t).state.policy = .throttle w) := by
  unfold submit at hanswered ⊢
  split
  · rename_i hname
    simp [hname] at hanswered
  · rename_i hname
    cases hgradient : t.isGradient with
    | true =>
      have hplace : place now t { q with stats := q.stats.countSubmitted } =
          (w.submit now t).within fun w =>
            { q with policy := .throttle w, stats := q.stats.countSubmitted } := by
        simp [place, hgradient, h]
      have hsubmit : (w.submit now t).IsAnswered := by
        rcases hresult : w.submit now t with ⟨f | _, w'⟩
        · simp [hname, hplace, hresult, Outcome.within] at hanswered
        · exact ⟨(), rfl⟩
      rw [hplace, Throttle.submit_of_isAnswered hsubmit]
      exact ⟨rfl, .inl ⟨rfl, rfl, rfl⟩⟩
    | false =>
      have hplace : place now t { q with stats := q.stats.countSubmitted } =
          .answered ()
            { q with scanned := q.scanned.insert t, stats := q.stats.countSubmitted } := by
        simp [place, hgradient]
      rw [hplace]
      exact ⟨rfl, .inr ⟨rfl, rfl, h⟩⟩

/-- An answered choice polls the throttle. If the poll releases nothing, a scanned task may
leave. -/
theorem choose_throttle (h : q.policy = .throttle w) {readiness : Readiness} {now : Int}
    (hanswered : (q.choose readiness now).IsAnswered) :
    ∃ t q' w', q.choose readiness now = .answered t q' ∧ q'.policy = .throttle w' ∧
      ((∃ u later, t = some u ∧ w.pending.tasks = u :: later ∧ ¬ w.IsExpired now ∧
          w.hasRoom u.len = true ∧ w' = w.releasing u later ∧ q'.scanned = q.scanned ∧
          q'.stats = q.stats) ∨
        q.scanned.tasks.Perm (t.toList ++ q'.scanned.tasks) ∧
          (w' = w ∧ q'.stats = q.stats ∨
            w.IsExpired now ∧ w' = w.nextWindow ∧ q'.stats = q.stats.countRoll)) := by
  have hpoll : (w.poll (q.admits readiness) now q.stats).IsAnswered := by
    rcases hresult : w.poll (q.admits readiness) now q.stats with ⟨f | t, w', stats⟩
    · simp [choose, chooseGradient, h, hresult, Outcome.within] at hanswered
    · exact ⟨t, rfl⟩
  -- without a gradient the scanned tasks have their turn, whatever the poll has left behind
  have hscan : ∀ w' stats', w.poll (q.admits readiness) now q.stats = .answered none (w', stats') →
      ∃ t q', q.choose readiness now = .answered t q' ∧ q'.policy = .throttle w' ∧
        q.scanned.tasks.Perm (t.toList ++ q'.scanned.tasks) ∧ q'.stats = stats' := by
    intro w' stats' hnone
    obtain ⟨⟨scanned, hstate⟩, hperm, -⟩ :=
      chooseScanned_spec readiness { q with policy := .throttle w', stats := stats' }
    have hchoose : q.choose readiness now =
        .answered (chooseScanned readiness { q with policy := .throttle w', stats := stats' }).1
          (chooseScanned readiness { q with policy := .throttle w', stats := stats' }).2 := by
      simp [choose, chooseGradient, h, hnone, Outcome.within, Outcome.answered]
    refine ⟨_, _, hchoose, ?_, hperm, ?_⟩
    · rw [hstate]
    · rw [hstate]
  rcases Throttle.poll_of_isAnswered hpoll with
    hidle | ⟨hexpired, hroll⟩ | ⟨u, later, htasks, hrunning, hroom, hrelease⟩
  · obtain ⟨t, q', hchoose, hpolicy, hperm, hstats⟩ := hscan _ _ hidle
    exact ⟨t, q', w, hchoose, hpolicy, .inr ⟨hperm, .inl ⟨rfl, hstats⟩⟩⟩
  · obtain ⟨t, q', hchoose, hpolicy, hperm, hstats⟩ := hscan _ _ hroll
    exact ⟨t, q', w.nextWindow, hchoose, hpolicy, .inr ⟨hperm, .inr ⟨hexpired, rfl, hstats⟩⟩⟩
  · have hchoose : q.choose readiness now =
        .answered (some u) { q with policy := .throttle (w.releasing u later) } := by
      simp [choose, chooseGradient, h, hrelease, Outcome.within, Outcome.answered]
    exact ⟨some u, _, w.releasing u later, hchoose, rfl,
      .inl ⟨u, later, rfl, htasks, hrunning, hroom, rfl, rfl, rfl⟩⟩

theorem policy_finish_throttle (h : q.policy = .throttle w) (len : Nat) :
    (q.finish len).state.policy = .throttle w := by
  simp [finish, h]

end Queue

/-! ### Actions on a throttle -/

namespace Moment

/-- What an action can do to a queue that meters its gradients with `w`: how many windows it
enters, and the throttle it leaves. -/
inductive OnThrottle (m : Moment) (w : Throttle) : Nat → Throttle → Prop
  /-- The head of an iteration starts the timeline over. -/
  | restarted {t : Task} (hsubmitted : m.submittedGradient? = some t)
      (hhead : w.isHead t.name = true) (hreturned : m.returnedGradient? = none) :
      OnThrottle m w 0 ((w.restarted m.before.now).waiting t)
  /-- Another gradient joins the pending ones. -/
  | submitted {t : Task} (hsubmitted : m.submittedGradient? = some t)
      (hhead : w.isHead t.name = false) (hreturned : m.returnedGradient? = none) :
      OnThrottle m w 0 (w.waiting t)
  /-- A window has passed, and the next one is entered. -/
  | rolled (haction : m.action = .dispatch) (hexpired : w.IsExpired m.before.now)
      (hsubmitted : m.submittedGradient? = none) (hreturned : m.returnedGradient? = none) :
      OnThrottle m w 1 w.nextWindow
  /-- The first gradient leaves. -/
  | released {t : Task} {later : List Task} (haction : m.action = .dispatch)
      (hrunning : ¬ w.IsExpired m.before.now) (hroom : w.hasRoom t.len = true)
      (hsubmitted : m.submittedGradient? = none)
      (hreturned : m.returnedGradient? = some t.released) :
      OnThrottle m w 0 (w.releasing t later)
  /-- The throttle is not concerned. -/
  | other (hsubmitted : m.submittedGradient? = none) (hreturned : m.returnedGradient? = none) :
      OnThrottle m w 0 w

/-- An accepted task enters the queue. -/
theorem submitted?_of_isAnswered {s : Session} {t : Task}
    (h : (outcome ⟨s, .submit t⟩).IsAnswered) : submitted? ⟨s, .submit t⟩ = some t := by
  obtain ⟨_, h⟩ := h
  simp only [submitted?, h]

/-- A submitted gradient joins the throttle, and any other submission passes it by. -/
private theorem submit_onThrottle {s : Session} {w : Throttle} (h : s.queue.Throttles w) (t : Task)
    (hanswered : (outcome ⟨s, .submit t⟩).IsAnswered) :
    let m : Moment := ⟨s, .submit t⟩
    ∃ w' rolls, m.after.queue.Throttles w' ∧ m.OnThrottle w rolls w' ∧
      m.after.queue.stats.windowRolls = s.queue.stats.windowRolls + rolls := by
  intro m
  have hqueue : (s.queue.submit s.now t).IsAnswered := (Outcome.isAnswered_map _ _).mp hanswered
  have hreturned : m.returnedGradient? = none := by simp [m, returnedGradient?]
  have hsubmitted : m.submitted? = some t := submitted?_of_isAnswered hanswered
  obtain ⟨hrolls, ⟨hgradient, hscanned, hpolicy⟩ | ⟨hcontrol, hscanned, hpolicy⟩⟩ :=
    Queue.submit_throttle h.policy hqueue
  · have hjoins : m.submittedGradient? = some t := by
      simp [submittedGradient?, hsubmitted, hgradient]
    have hwaits : ∀ w' : Throttle, w'.pending = w.pending →
        ∀ u ∈ (w'.waiting t).pending.tasks, u.isGradient = true := by
      intro w' hpending u hu
      rw [Throttle.waiting, hpending] at hu
      rcases List.mem_cons.mp ((w.pending.perm_insert t).mem_iff.mp hu) with rfl | hu
      · exact hgradient
      · exact h.gradients u hu
    cases hhead : w.isHead t.name with
    | true =>
      rw [hhead, if_pos rfl] at hpolicy
      exact ⟨_, 0, ⟨hpolicy, hwaits _ rfl, hscanned ▸ h.scanned⟩,
        .restarted hjoins hhead hreturned, hrolls⟩
    | false =>
      rw [hhead, if_neg (by decide)] at hpolicy
      exact ⟨_, 0, ⟨hpolicy, hwaits _ rfl, hscanned ▸ h.scanned⟩,
        .submitted hjoins hhead hreturned, hrolls⟩
  · have hpasses : m.submittedGradient? = none := by
      simp [submittedGradient?, hsubmitted, hcontrol]
    refine ⟨w, 0, ⟨hpolicy, h.gradients, ?_⟩, .other hpasses hreturned, hrolls⟩
    intro u hu
    rw [queue_after_submit, hscanned] at hu
    rcases List.mem_cons.mp ((s.queue.scanned.perm_insert t).mem_iff.mp hu) with rfl | hu
    · exact hcontrol
    · exact h.scanned u hu

/-- A dispatch polls the throttle. -/
private theorem dispatch_onThrottle {s : Session} {w : Throttle} (h : s.queue.Throttles w)
    (hanswered : s.dispatch.IsAnswered) :
    let m : Moment := ⟨s, .dispatch⟩
    ∃ w' rolls, m.after.queue.Throttles w' ∧ m.OnThrottle w rolls w' ∧
      m.after.queue.stats.windowRolls = s.queue.stats.windowRolls + rolls := by
  intro m
  have hchosen : (s.queue.choose s.readiness s.now).IsAnswered := by
    rcases s.dispatch_cases with
      ⟨f, q, -, hdispatch⟩ | ⟨q, hchoose, -⟩ | ⟨t, q, credit, s', hchoose, -⟩
    · simp [hdispatch] at hanswered
    · exact ⟨none, by rw [hchoose]; rfl⟩
    · exact ⟨some t, by rw [hchoose]; rfl⟩
  obtain ⟨t, q, w', hchoose, hpolicy, hcase⟩ := Queue.choose_throttle h.policy hchosen
  obtain ⟨s', hdispatch, hpolicy', hscanned', -, hrolls', -⟩ :=
    Session.dispatch_of_choose hchoose
  have hafter : m.after = s' := by simp [m, after, hdispatch]
  have hreturned : m.returned? = t.map Task.released := by simp [m, returned?, hdispatch]
  rw [hafter, hrolls']
  rw [hpolicy] at hpolicy'
  rcases hcase with
    ⟨u, later, rfl, htasks, hrunning, hroom, rfl, hscanned, hstats⟩ | ⟨hperm, hcase⟩
  · have hgradient : m.returnedGradient? = some u.released := by
      have hu : u.isGradient = true := h.gradients u (by simp [htasks])
      simp [returnedGradient?, hreturned, hu]
    refine ⟨_, 0, ⟨hpolicy', ?_, ?_⟩, .released rfl hrunning hroom rfl hgradient,
      by rw [hstats, Nat.add_zero]⟩
    · exact fun v hv => h.gradients v (htasks ▸ List.mem_cons_of_mem u hv)
    · rw [hscanned', hscanned]
      exact h.scanned
  · have hnone : m.returnedGradient? = none := by
      rw [returnedGradient?, hreturned]
      cases t with
      | none => rfl
      | some u =>
        have hu : u.isGradient = false := h.scanned u (hperm.mem_iff.mpr (by simp))
        simpa using hu
    have hcontrols : ∀ v ∈ s'.queue.scanned.tasks, v.isGradient = false := by
      intro v hv
      exact h.scanned v (hperm.mem_iff.mpr (List.mem_append_right _ (hscanned' ▸ hv)))
    rcases hcase with ⟨rfl, hstats⟩ | ⟨hexpired, rfl, hstats⟩
    · exact ⟨_, 0, ⟨hpolicy', h.gradients, hcontrols⟩, .other rfl hnone, by rw [hstats]; rfl⟩
    · exact ⟨_, 1, ⟨hpolicy', h.gradients, hcontrols⟩, .rolled rfl hexpired rfl hnone,
        by rw [hstats]; rfl⟩

/-- Every answered action on a queue that meters its gradients is one of these, and the queue goes
on metering them; its counter of windows goes along. -/
theorem onThrottle {m : Moment} {w : Throttle} (h : m.before.queue.Throttles w)
    (hanswered : m.outcome.IsAnswered) :
    ∃ w' rolls, m.after.queue.Throttles w' ∧ m.OnThrottle w rolls w' ∧
      m.after.queue.stats.windowRolls = m.before.queue.stats.windowRolls + rolls := by
  obtain ⟨s, a⟩ := m
  cases a with
  | submit t => exact submit_onThrottle h t hanswered
  | dispatch => exact dispatch_onThrottle h hanswered
  | dispatchKey key =>
    have hpolicy : s.queue.policy = .throttle w := h.policy
    obtain ⟨f, hrefused⟩ :=
      Session.dispatchKey_of_policy_ne_plain (s := s) (by simp [hpolicy]) key
    simp [hrefused] at hanswered
  | finish len =>
    obtain ⟨credit, policy, hstate, -, -⟩ := s.queue.finish_spec len
    have hscanned : (s.queue.finish len).state.scanned = s.queue.scanned := by rw [hstate]
    refine ⟨w, 0, ⟨Queue.policy_finish_throttle h.policy len, h.gradients, ?_⟩,
      .other rfl (by simp [returnedGradient?]), ?_⟩
    · rw [queue_after_finish, hscanned]
      exact h.scanned
    · rw [queue_after_finish, hstate]
      rfl
  | change c =>
    rw [queue_after_change]
    exact ⟨w, 0, h, .other rfl rfl, rfl⟩

/-- No action changes what a throttle is made for. -/
theorem OnThrottle.plan {m : Moment} {w w' : Throttle} {rolls : Nat}
    (h : m.OnThrottle w rolls w') : w'.plan = w.plan := by
  cases h <;> rfl

end Moment

end TensorDispatch
