import TensorDispatch.Proofs.Queue.Breaches
import TensorDispatch.Proofs.Queue.Control
import TensorDispatch.Proofs.Throttle.Metering

/-!
# Deadlines that the clock cannot hold

A throttle forms one sum for each window that it enters, the deadline of the window, and an action
whose deadline does not fit the clock is refused.

* `Moment.deadline?` — the deadline that an action forms, as an exact sum;
* `Moment.runsThrough_iff` — an action runs through exactly where this deadline fits the clock;
* `Throttle.OnTime` — the invariant of a run whose timelines all fit the clock;
* `runsThrough_iff_deadline_fits` — along every run, this is all that can go wrong. A head whose
  deadline does not fit is counted and then lost; where every timeline fits, nothing is refused;
* `not_runsThrough_saturated` — and a usable plan may have a window that leaves no room behind the
  instant 0.
-/

namespace TensorDispatch

open scoped List

/-! ### Throttles -/

/-- Every window of the timeline that starts at this instant ends on the clock. -/
def FitsClock (lengths : List Int) (start : Int) : Prop :=
  ∀ i, IsSigned (start + (lengths.take (i + 1)).sum)

theorem FitsClock.first {lengths : List Int} {start : Int} (h : FitsClock lengths start) :
    IsSigned (start + lengths.headD 0) := by
  rw [headD_eq_sum_take]
  exact h 0

namespace Throttle

variable {w w' : Throttle} {t : Task} {now : Int}

/-- Whether a named gradient is the head of an iteration. -/
def IsStartedBy (t : Task) (w : Throttle) : Prop :=
  t.name ≠ "" ∧ t.isGradient = true ∧ w.isHead t.name = true

instance (t : Task) (w : Throttle) : Decidable (w.IsStartedBy t) :=
  inferInstanceAs (Decidable (_ ∧ _))

/-- Whether a poll enters the next window. -/
def Rolls (now : Int) (w : Throttle) : Prop := w.pending.tasks ≠ [] ∧ w.IsExpired now

instance (now : Int) (w : Throttle) : Decidable (w.Rolls now) :=
  inferInstanceAs (Decidable (_ ∧ _))

/-- The deadline of the next window, if there is one. -/
def nextDeadline? (w : Throttle) : Option Int := w.lengths[w.index + 1]?.map (w.deadline + ·)

/-- The window that runs. -/
def window (w : Throttle) : Nat × Int := (w.index, w.deadline)

theorem isStartedBy_congr (h : w'.plan = w.plan) : w'.IsStartedBy t ↔ w.IsStartedBy t := by
  simp only [plan, Prod.mk.injEq] at h
  simp only [IsStartedBy, isHead, h.2.2]

theorem isAnswered_submit_iff : (w.submit now t).IsAnswered ↔ w.Accepts now t := by
  by_cases h : w.Accepts now t
  · simp [submit_of_accepts h, h]
  · simp [submit_of_not_accepts h, h]

theorem isAnswered_roll_iff : w.roll.IsAnswered ↔ ∀ d ∈ w.nextDeadline?, IsSigned d := by
  unfold roll nextDeadline?
  cases hlength : w.lengths[w.index + 1]? with
  | none => simp [hlength]
  | some length =>
    by_cases hfits : IsSigned (w.deadline + length)
    · simp [hlength, addSigned_of_isSigned hfits, hfits]
    · simp [hlength, addSigned_of_not_isSigned hfits, hfits]

@[simp] theorem plan_state_roll (w : Throttle) : w.roll.state.plan = w.plan := by
  simp only [roll]
  split
  · rfl
  · split <;> rfl

/-- A poll that enters the next window does nothing else. -/
theorem poll_of_rolls (h : w.Rolls now) (admits : Task → Bool) (stats : Stats) :
    ((w.poll admits now stats).IsAnswered ↔ w.roll.IsAnswered) ∧
      (w.poll admits now stats).state.1 = w.roll.state := by
  have hwaiting : w.pending.tasks.isEmpty = false := by simpa using h.1
  rcases hroll : w.roll with ⟨f | ⟨⟩, w'⟩
  · simp [poll, hwaiting, h.2, hroll]
  · simp [poll, hwaiting, h.2, hroll, Outcome.IsAnswered]

/-- Any other poll stays in its window, and is answered. -/
theorem poll_of_not_rolls (h : ¬ w.Rolls now) (admits : Task → Bool) (stats : Stats) :
    (w.poll admits now stats).IsAnswered ∧
      (w.poll admits now stats).state.1.plan = w.plan ∧
      (w.poll admits now stats).state.1.window = w.window := by
  have hrelease : (w.releaseFirst admits).2.plan = w.plan ∧
      (w.releaseFirst admits).2.window = w.window := by
    unfold releaseFirst
    split
    · exact ⟨rfl, rfl⟩
    · split <;> exact ⟨rfl, rfl⟩
  unfold poll
  split
  · exact ⟨⟨_, rfl⟩, rfl, rfl⟩
  · rename_i hwaiting
    have hrunning : ¬ w.IsExpired now := fun hexpired => h ⟨by simpa using hwaiting, hexpired⟩
    rw [if_neg hrunning]
    exact ⟨⟨_, rfl⟩, hrelease⟩

/-! ### Timelines on the clock -/

/-- The window that runs, if one does, is one of a timeline that fits the clock. -/
def OnTime (w : Throttle) : Prop :=
  w.index < w.lengths.length →
    ∃ start, FitsClock w.lengths start ∧ w.deadline = start + (w.lengths.take (w.index + 1)).sum

namespace OnTime

theorem start (plan : WindowPlan) (headName : Option String) :
    (Throttle.start plan headName).OnTime := fun hindex => absurd hindex (Nat.lt_irrefl _)

theorem congr (hplan : w'.plan = w.plan) (hwindow : w'.window = w.window) (h : w.OnTime) :
    w'.OnTime := by
  simp only [plan, window, Prod.mk.injEq] at hplan hwindow
  simpa only [OnTime, hplan.1, hwindow.1, hwindow.2] using h

/-- The timeline starts on the clock. -/
theorem restart (hfits : FitsClock w.lengths now) : (w.restart now).state.OnTime := by
  rw [state_restart, if_pos hfits.first]
  exact fun _ => ⟨now, hfits, by rw [headD_eq_sum_take]⟩

/-- The next window ends on the clock too. -/
theorem isSigned_nextDeadline (h : w.OnTime) (hindex : w.index < w.lengths.length) :
    ∀ d ∈ w.nextDeadline?, IsSigned d := by
  obtain ⟨start, hfits, hdeadline⟩ := h hindex
  intro d hd
  obtain ⟨length, hlength, rfl⟩ := Option.map_eq_some_iff.mp hd
  obtain ⟨hnext, rfl⟩ := List.getElem?_eq_some_iff.mp hlength
  rw [hdeadline, Int.add_assoc, ← List.sum_take_succ w.lengths (w.index + 1) hnext]
  exact hfits (w.index + 1)

theorem roll (h : w.OnTime) (hindex : w.index < w.lengths.length) : w.roll.state.OnTime := by
  obtain ⟨start, hfits, hdeadline⟩ := h hindex
  rw [roll_of_isAnswered (isAnswered_roll_iff.mpr (h.isSigned_nextDeadline hindex))]
  exact fun hnext => ⟨start, hfits, deadline_nextWindow hnext hdeadline⟩

end OnTime

end Throttle

/-! ### Operations -/

/-- A named task is accepted unless it is a gradient that the throttle does not accept. -/
theorem Queue.isAnswered_submit_iff {q : Queue} {w : Throttle} (h : q.policy = .throttle w)
    {t : Task} (hname : t.name ≠ "") {now : Int} :
    (q.submit now t).IsAnswered ↔ (t.isGradient = true → w.Accepts now t) := by
  rw [Outcome.IsAnswered, result_submit_of_named hname, ← Outcome.IsAnswered]
  cases hgradient : t.isGradient with
  | true =>
    simp [place, hgradient, h, Outcome.isAnswered_within, Throttle.isAnswered_submit_iff]
  | false => simp [place_control hgradient]

/-- A dispatch is answered if the policy can be asked. -/
theorem Session.isAnswered_dispatch_iff (s : Session) :
    s.dispatch.IsAnswered ↔ (s.queue.chooseGradient s.readiness s.now).IsAnswered := by
  rcases s.dispatch_policy_cases.2.2 with
    ⟨f, hasked, hdispatch, -⟩ | ⟨t, hasked, hdispatch, -⟩ | ⟨hasked, hdispatch, -⟩
  · simp [Outcome.IsAnswered, hasked, hdispatch]
  · simp [Outcome.IsAnswered, hasked, hdispatch]
  · simp [Outcome.IsAnswered, hasked, hdispatch]

/-! ### Moments -/

namespace Moment

/-- The deadline that an action on a throttle forms: that of the first window with the head of an
iteration, and that of the next one with a poll that enters it. -/
def deadline? (w : Throttle) (m : Moment) : Option Int :=
  match m.action with
  | .submit t => if w.IsStartedBy t then some (m.before.now + w.lengths.headD 0) else none
  | .dispatch => if w.Rolls m.before.now then w.nextDeadline? else none
  | _ => none

@[simp] theorem deadline?_submit (w : Throttle) (s : Session) (t : Task) :
    deadline? w ⟨s, .submit t⟩ =
      if w.IsStartedBy t then some (s.now + w.lengths.headD 0) else none := rfl

@[simp] theorem deadline?_dispatch (w : Throttle) (s : Session) :
    deadline? w ⟨s, .dispatch⟩ = if w.Rolls s.now then w.nextDeadline? else none := rfl

/-- The throttle in the window that an action leaves it in, answered or not. -/
def turned (w : Throttle) (m : Moment) : Throttle :=
  match m.action with
  | .submit t => if w.IsStartedBy t then (w.restart m.before.now).state else w
  | .dispatch => if w.Rolls m.before.now then w.roll.state else w
  | _ => w

/-- A named task that is submitted is in the queue afterwards, and a dispatch is answered. -/
def RunsThrough (m : Moment) : Prop :=
  match m.action with
  | .submit t =>
    t.name ≠ "" → m.outcome.IsAnswered ∧ m.after.queue.tasks ~ t :: m.before.queue.tasks
  | .dispatch => m.outcome.IsAnswered
  | _ => True

/-- A head that is submitted starts a timeline that fits the clock. -/
def StartsOnClock (w : Throttle) (m : Moment) : Prop :=
  ∀ t, m.action = .submit t → w.IsStartedBy t → FitsClock w.lengths m.before.now

variable {m : Moment} {w w' : Throttle}

/-- An action runs through exactly where the deadline that it forms fits the clock. -/
theorem runsThrough_iff (h : m.before.queue.policy = .throttle w) :
    m.RunsThrough ↔ ∀ d ∈ m.deadline? w, IsSigned d := by
  obtain ⟨s, a⟩ := m
  have hpolicy : s.queue.policy = .throttle w := h
  cases a with
  | submit t =>
    by_cases hname : t.name = ""
    · simp [RunsThrough, Throttle.IsStartedBy, hname]
    have hanswered : (outcome ⟨s, .submit t⟩).IsAnswered ↔ (s.queue.submit s.now t).IsAnswered :=
      Outcome.isAnswered_map _ _
    have hjoins : (outcome ⟨s, .submit t⟩).IsAnswered →
        (after ⟨s, .submit t⟩).queue.tasks ~ t :: s.queue.tasks := fun h =>
      ((s.queue.submit_spec s.now t).2 (hanswered.mp h)).1
    calc RunsThrough ⟨s, .submit t⟩
        ↔ (outcome ⟨s, .submit t⟩).IsAnswered := by
          simp only [RunsThrough, ne_eq, hname, not_false_eq_true, forall_const]
          exact and_iff_left_of_imp hjoins
      _ ↔ (t.isGradient = true → w.Accepts s.now t) :=
          hanswered.trans (Queue.isAnswered_submit_iff hpolicy hname)
      _ ↔ ∀ d ∈ deadline? w ⟨s, .submit t⟩, IsSigned d := by
          by_cases hhead : w.IsStartedBy t
          · simp [hhead, Throttle.Accepts, hhead.2.1, hhead.2.2]
          · have hother : ¬ (t.isGradient = true ∧ w.isHead t.name = true) :=
              fun hstarts => hhead ⟨hname, hstarts⟩
            refine iff_of_true (fun hgradient hstarts => absurd ⟨hgradient, hstarts⟩ hother) ?_
            simp [hhead]
  | dispatch =>
    have hpoll : (s.queue.chooseGradient s.readiness s.now).IsAnswered ↔
        (w.poll (s.queue.admits s.readiness) s.now s.queue.stats).IsAnswered := by
      simp [Queue.chooseGradient, hpolicy, Outcome.isAnswered_within]
    rw [RunsThrough, outcome_dispatch, s.isAnswered_dispatch_iff, hpoll, deadline?_dispatch]
    by_cases hrolls : w.Rolls s.now
    · rw [if_pos hrolls, (Throttle.poll_of_rolls hrolls _ _).1, Throttle.isAnswered_roll_iff]
    · rw [if_neg hrolls]
      exact iff_of_true (Throttle.poll_of_not_rolls hrolls _ _).1 (by simp)
  | dispatchKey key => simp [RunsThrough, deadline?]
  | finish len => simp [RunsThrough, deadline?]
  | change c => simp [RunsThrough, deadline?]

/-- A throttle stays in place, refused actions included, and an action turns its window alone. -/
theorem throttle_after (h : m.before.queue.policy = .throttle w) :
    ∃ w', m.after.queue.policy = .throttle w' ∧ w'.plan = w.plan ∧
      w'.window = (m.turned w).window := by
  obtain ⟨s, a⟩ := m
  have hpolicy : s.queue.policy = .throttle w := h
  have hmetered : s.queue.policy ≠ .plain := by simp [hpolicy]
  cases a with
  | submit t =>
    by_cases hname : t.name = ""
    · refine ⟨w, ?_, rfl, by simp [turned, Throttle.IsStartedBy, hname]⟩
      rw [queue_after_submit, Queue.submit_of_unnamed hname]
      exact hpolicy
    cases hgradient : t.isGradient with
    | false =>
      refine ⟨w, ?_, rfl, by simp [turned, Throttle.IsStartedBy, hgradient]⟩
      rw [queue_after_submit, (Queue.submit_control hgradient hname s.now).1]
      exact hpolicy
    | true =>
      refine ⟨(w.submit s.now t).state, ?_, w.plan_state_submit s.now t, ?_⟩
      · rw [queue_after_submit, (Queue.submit_gradient hgradient hname hmetered s.now).1, hpolicy]
        rfl
      · have hheard : (w.submit s.now t).state.window = (w.heard s.now t).window := by
          by_cases haccepts : w.Accepts s.now t
          · rw [Throttle.submit_of_accepts haccepts]
            rfl
          · rw [Throttle.submit_of_not_accepts haccepts]
            rfl
        rw [hheard, turned, Throttle.heard]
        simp [Throttle.IsStartedBy, hname, hgradient]
  | dispatch =>
    refine ⟨(w.poll (s.queue.admits s.readiness) s.now s.queue.stats).state.1, ?_, ?_⟩
    · rw [after, outcome_dispatch, s.dispatch_policy_cases.1]
      simp [Queue.chooseGradient, hpolicy]
    · rw [turned]
      dsimp only
      by_cases hrolls : w.Rolls s.now
      · rw [if_pos hrolls, (Throttle.poll_of_rolls hrolls _ _).2]
        exact ⟨w.plan_state_roll, rfl⟩
      · rw [if_neg hrolls]
        exact (Throttle.poll_of_not_rolls hrolls _ _).2
  | dispatchKey key =>
    obtain ⟨f, hrefused⟩ := Session.dispatchKey_of_policy_ne_plain hmetered key
    refine ⟨w, ?_, rfl, rfl⟩
    rw [after, outcome_dispatchKey, hrefused]
    exact hpolicy
  | finish len => exact ⟨w, Queue.policy_finish_throttle hpolicy len, rfl, rfl⟩
  | change c =>
    refine ⟨w, ?_, rfl, rfl⟩
    rw [queue_after_change]
    exact hpolicy

@[simp] theorem plan_turned (w : Throttle) (m : Moment) : (m.turned w).plan = w.plan := by
  unfold turned
  split
  · split
    · rw [Throttle.state_restart]
      rfl
    · rfl
  · split
    · exact w.plan_state_roll
    · rfl
  · rfl

theorem startsOnClock_congr (h : w'.plan = w.plan) : m.StartsOnClock w' ↔ m.StartsOnClock w := by
  have hlengths : w'.lengths = w.lengths := congrArg Prod.fst h
  simp only [StartsOnClock, Throttle.isStartedBy_congr h, hlengths]

/-- On time, an action runs through, and what it leaves is on time. -/
theorem runsThrough_of_onTime (h : m.before.queue.policy = .throttle w) (hontime : w.OnTime)
    (hstarts : m.StartsOnClock w) : m.RunsThrough ∧ (m.turned w).OnTime := by
  rw [runsThrough_iff h]
  obtain ⟨s, a⟩ := m
  cases a with
  | submit t =>
    by_cases hhead : w.IsStartedBy t
    · have hfits : FitsClock w.lengths s.now := hstarts t rfl hhead
      refine ⟨by simpa [hhead] using hfits.first, ?_⟩
      simpa [turned, hhead] using Throttle.OnTime.restart hfits
    · exact ⟨by simp [hhead], by simpa [turned, hhead] using hontime⟩
  | dispatch =>
    by_cases hrolls : w.Rolls s.now
    · have hindex : w.index < w.lengths.length := hrolls.2.2
      refine ⟨by simpa [hrolls] using hontime.isSigned_nextDeadline hindex, ?_⟩
      simpa [turned, hrolls] using hontime.roll hindex
    · exact ⟨by simp [hrolls], by simpa [turned, hrolls] using hontime⟩
  | _ => exact ⟨by simp [deadline?], hontime⟩

/-- Where an action does not run through, its deadline has overflown. No task has moved, and a task
that was submitted is counted all the same. -/
theorem of_not_runsThrough (h : ¬ m.RunsThrough) :
    m.outcome.result = .error .sumOverflow ∧ m.after.queue.tasks ~ m.before.queue.tasks ∧
      ∀ t, m.action = .submit t →
        m.after.queue.stats = m.before.queue.stats.countSubmitted := by
  obtain ⟨s, a⟩ := m
  cases a with
  | submit t =>
    obtain ⟨hname, hfails⟩ := Classical.not_imp.mp h
    have hrefused : ¬ (s.queue.submit s.now t).IsAnswered := fun hsubmit =>
      hfails ⟨(Outcome.isAnswered_map _ _).mpr hsubmit, ((s.queue.submit_spec s.now t).2 hsubmit).1⟩
    cases hresult : (s.queue.submit s.now t).result with
    | ok _ => exact absurd ⟨_, hresult⟩ hrefused
    | error f =>
      obtain rfl := Queue.fault_submit_of_named hname hresult
      have hplace : ¬ (s.queue.place s.now t).IsAnswered := by
        rw [Queue.result_submit_of_named hname] at hresult
        simp [Outcome.IsAnswered, hresult]
      refine ⟨Outcome.result_map_eq_error_iff.mpr hresult, ?_, fun _ _ => ?_⟩
      · rw [queue_after_submit, Queue.tasks_submit_of_refused hresult]
      · rw [queue_after_submit, Queue.state_submit_of_named hname, if_neg hplace]
  | dispatch =>
    cases hresult : (outcome ⟨s, .dispatch⟩).result with
    | ok t => exact absurd ⟨t, hresult⟩ h
    | error f =>
      have hperm := perm_of_refused hresult
      have hfault : f = .sumOverflow := by
        cases mayFault hresult
        rfl
      exact ⟨by rw [hfault], by simpa [lost?] using hperm.symm, by simp⟩
  | _ => exact absurd trivial h

end Moment

/-! ### Runs -/

namespace Session

/-- A throttle stays in place along every run. -/
theorem exists_throttle_after {s : Session} {w : Throttle} (h : s.queue.policy = .throttle w)
    (actions : List Action) :
    ∃ w', (s.after actions).queue.policy = .throttle w' ∧ w'.plan = w.plan := by
  refine history_induction
    (I := fun _ now => ∃ w', now.queue.policy = .throttle w' ∧ w'.plan = w.plan)
    ⟨w, h, rfl⟩ ?_ actions
  rintro - m ⟨w₁, hbefore, hplan⟩
  obtain ⟨w₂, hafter, hplan', -⟩ := Moment.throttle_after hbefore
  exact ⟨w₂, hafter, hplan'.trans hplan⟩

/-- Where every timeline fits the clock, every action runs through. -/
theorem runsThrough_of_startsOnClock {s : Session} {w : Throttle}
    (h : s.queue.policy = .throttle w) (hontime : w.OnTime) {actions : List Action}
    (hstarts : ∀ m ∈ s.history actions, m.StartsOnClock w) :
    ∀ m ∈ s.history actions, m.RunsThrough := by
  refine (history_induction (I := fun h now => (∀ m ∈ h, m.StartsOnClock w) →
    (∀ m ∈ h, m.RunsThrough) ∧
      ∃ w', now.queue.policy = .throttle w' ∧ w'.plan = w.plan ∧ w'.OnTime)
    (fun _ => ⟨by simp, w, h, rfl, hontime⟩) ?_ actions hstarts).1
  intro h m hbefore hstarts
  obtain ⟨hruns, w₁, hpolicy, hplan, hontime⟩ :=
    hbefore fun m' hm' => hstarts m' (List.mem_append_left _ hm')
  have hlast := (Moment.startsOnClock_congr hplan).mpr (hstarts m (by simp))
  obtain ⟨hrun, hturned⟩ := Moment.runsThrough_of_onTime hpolicy hontime hlast
  obtain ⟨w₂, hafter, hplan', hwindow⟩ := Moment.throttle_after hpolicy
  refine ⟨?_, w₂, hafter, hplan'.trans hplan, hturned.congr ?_ hwindow⟩
  · intro m' hm'
    rcases List.mem_append.mp hm' with hm' | hm'
    · exact hruns m' hm'
    · rw [List.mem_singleton.mp hm']
      exact hrun
  · rw [hplan', Moment.plan_turned]

end Session

/-- **Deadlines and the clock.** Along every run, whatever the clock shows, a named task that is
submitted is in the queue afterwards and a dispatch is answered exactly where the deadline that the
action forms fits the clock. Where it does not, no task moves, and a submitted head is counted but
lost. So everything runs through if each head starts a timeline that ends on the clock. -/
theorem runsThrough_iff_deadline_fits {config : QueueConfig} {role : Role} {plan : WindowPlan}
    {s : Session} (hs : Queue.create .push config role = .ok s.queue)
    (hstrategy : config.strategy = .timeWindow) (hplan : config.window = some plan)
    (actions : List Action) :
    (∀ m ∈ s.history actions, ∃ w, m.before.queue.policy = .throttle w ∧
      w.plan = (plan.lengths, plan.budget, config.beginName) ∧
      (m.RunsThrough ↔ ∀ d ∈ m.deadline? w, IsSigned d) ∧
      (¬ m.RunsThrough →
        m.outcome.result = .error .sumOverflow ∧
        m.after.queue.tasks ~ m.before.queue.tasks ∧
        ∀ t, m.action = .submit t →
          m.after.queue.stats = m.before.queue.stats.countSubmitted)) ∧
    ((∀ m ∈ s.history actions, m.StartsOnClock (.start plan config.beginName)) →
      ∀ m ∈ s.history actions, m.RunsThrough) := by
  have hpolicy := (Queue.throttles_create hs hstrategy hplan).policy
  refine ⟨fun m hm => ?_, fun hstarts =>
    Session.runsThrough_of_startsOnClock hpolicy (.start plan config.beginName) hstarts⟩
  obtain ⟨earlier, -, hbefore⟩ := Session.exists_after_of_mem_history hm
  obtain ⟨w, hthrottle, hw⟩ := Session.exists_throttle_after hpolicy earlier
  rw [hbefore] at hthrottle
  exact ⟨w, hthrottle, hw, Moment.runsThrough_iff hthrottle, Moment.of_not_runsThrough⟩

/-- A plan of one window. How long it is does not matter to what follows. -/
def shortPlan : WindowPlan := { backwardMillis := [1.5], budget := 10 }

/-- The head of an iteration enters, and the throttle is polled. -/
def headRun : List Action := [.submit headTask, .dispatch]

theorem isSigned_roundSigned (x : Float) : IsSigned (roundSigned x) := by
  unfold roundSigned IsSigned
  split <;> omega

theorem runsThrough_iff_deadline_fits_headRun :
    let s := Session.ofPlan shortPlan (some "fc")
    Queue.create .push
        { strategy := .timeWindow, window := some shortPlan, beginName := some "fc" } {} =
          .ok s.queue ∧
      ∀ m ∈ s.history headRun, m.RunsThrough := by
  intro s
  have hvalid : shortPlan.validate = .ok () := rfl
  have hs := Session.create_ofPlan hvalid (some "fc")
  obtain ⟨-, hruns⟩ := runsThrough_iff_deadline_fits (s := s) hs rfl rfl headRun
  refine ⟨hs, hruns ?_⟩
  -- the head enters while the clock is at zero, and the one window is no longer than a reading
  intro m hm t haction _ i
  have hfirst : m = ⟨s, .submit headTask⟩ := by
    rcases List.mem_cons.mp hm with rfl | hm
    · rfl
    · rw [List.mem_singleton.mp hm] at haction
      cases haction
  have hsum : (shortPlan.lengths.take (i + 1)).sum =
      roundSigned (1.5 * shortPlan.factor * 1000.0) := by
    simp [shortPlan, WindowPlan.lengths]
  have hends : m.before.now + ((Throttle.start shortPlan (some "fc")).lengths.take (i + 1)).sum =
      roundSigned (1.5 * shortPlan.factor * 1000.0) := by
    rw [hfirst, ← hsum]
    exact Int.zero_add _
  rw [hends]
  exact isSigned_roundSigned _

/-- A plan of one window, as long as a reading can be. -/
def saturatedPlan : WindowPlan := { backwardMillis := [1e16], budget := 10 }

/-- A session around a fresh push queue with this plan. The clock stands at the instant 1. -/
def Session.saturated : Session := { Session.ofPlan saturatedPlan (some "fc") with clock := 1 }

theorem not_runsThrough_saturated :
    saturatedPlan.validate = .ok () ∧ saturatedPlan.lengths = [0x7fffffffffffffff] ∧
      Queue.create .push
          { strategy := .timeWindow, window := some saturatedPlan, beginName := some "fc" } {} =
        .ok Session.saturated.queue ∧
      (Session.saturated.after [.submit headTask]).queue.stats.submitted = 1 ∧
      (Session.saturated.after [.submit headTask]).queue.tasks = [] ∧
      ¬ ∀ m ∈ Session.saturated.history [.submit headTask], m.RunsThrough := by
  have hvalid : saturatedPlan.validate = .ok () := rfl
  refine ⟨hvalid, by decide +kernel, Session.create_ofPlan hvalid _, by decide +kernel,
    by decide +kernel, fun hruns => ?_⟩
  have hjoins := (hruns ⟨Session.saturated, .submit headTask⟩ List.mem_cons_self (by decide)).1
  revert hjoins
  decide +kernel

end TensorDispatch
