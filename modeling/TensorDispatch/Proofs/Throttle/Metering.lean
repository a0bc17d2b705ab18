import Mathlib.Algebra.BigOperators.Group.List.Basic
import Mathlib.Algebra.GroupWithZero.Nat
import Mathlib.Algebra.Ring.Int.Defs
import TensorDispatch.Proofs.Queue.Frames
import TensorDispatch.Proofs.Throttle.Trace

/-!
# Metering by windows

A throttle cuts the time since the last head of an iteration into windows and lets at most its
budget of bytes go in each of them.

* `Moment.StartsIteration`, `Moment.MovesWindow` — the head of an iteration enters the queue, and
  what an action does to the window;
* `Throttle.Timeline` — the invariant: how window, deadline and budget stand to what has left since
  the timeline started. `Throttle.Timeline.onThrottle` keeps it;
* `window_metering` — along every run without faults and with a clock that never goes back, what is
  released in a window is released in time and within the budget.
-/

namespace TensorDispatch

/-! ### Moments on a timeline -/

namespace Moment

/-- The head of an iteration enters the queue: an accepted gradient whose name has the configured
part in it. -/
def StartsIteration (headName : Option String) (m : Moment) : Prop :=
  ∃ t part, m.submittedGradient? = some t ∧ headName = some part ∧ part ≠ "" ∧
    Text.occurs part t.name = true

instance (headName : Option String) (m : Moment) : Decidable (m.StartsIteration headName) :=
  decidable_of_iff (∃ t ∈ m.submittedGradient?, ∃ part ∈ headName, part ≠ "" ∧
    Text.occurs part t.name = true) (by simp [StartsIteration])

/-- What an action does to the window: it stays in it, enters the next one without releasing a
gradient, or starts over with the head of an iteration. Only entering the next one is counted. -/
def MovesWindow (headName : Option String) (m : Moment) : Prop :=
  ∃ w w', m.before.queue.policy = .throttle w ∧ m.after.queue.policy = .throttle w' ∧
    (¬ m.StartsIteration headName ∧ w'.index = w.index ∧
        m.after.queue.stats.windowRolls = m.before.queue.stats.windowRolls ∨
      m.action = .dispatch ∧ m.returnedGradient? = none ∧ w'.index = w.index + 1 ∧
        m.after.queue.stats.windowRolls = m.before.queue.stats.windowRolls + 1 ∨
      m.StartsIteration headName ∧ w'.index = 0 ∧
        m.after.queue.stats.windowRolls = m.before.queue.stats.windowRolls)

/-- The bytes of the gradient that leaves in the window with this index. -/
def bytesIn (i : Nat) (m : Moment) : Nat :=
  if m.before.queue.window? = some i then (m.returnedGradient?.map Task.len).getD 0 else 0

theorem bytesIn_of_returnedGradient?_eq_none {m : Moment} (h : m.returnedGradient? = none)
    (i : Nat) : m.bytesIn i = 0 := by
  simp [bytesIn, h]

end Moment

/-- The bytes of all gradients that leave in the window with this index. -/
def windowBytes (i : Nat) (h : List Moment) : Nat := (h.map (Moment.bytesIn i)).sum

@[simp] theorem windowBytes_concat (i : Nat) (h : List Moment) (m : Moment) :
    windowBytes i (h ++ [m]) = windowBytes i h + m.bytesIn i := by
  simp [windowBytes]

/-! ### The invariant -/

/-- The first window of a timeline is all that has passed at its end. -/
theorem headD_eq_sum_take (lengths : List Int) : lengths.headD 0 = (lengths.take 1).sum := by
  cases lengths <;> simp

namespace Throttle

/-- The deadline of the next window is that of the timeline. -/
theorem deadline_nextWindow {w : Throttle} {start : Int} (hindex : w.index + 1 < w.lengths.length)
    (h : w.deadline = start + (w.lengths.take (w.index + 1)).sum) :
    w.nextWindow.deadline = start + (w.lengths.take (w.index + 1 + 1)).sum := by
  have hlength : w.lengths[w.index + 1]?.getD 0 = w.lengths[w.index + 1] := by
    rw [List.getElem?_eq_getElem hindex]
    rfl
  have hsum := List.sum_take_succ w.lengths (w.index + 1) hindex
  simp only [nextWindow, hlength, h, hsum, Int.add_assoc]

/-- How a throttle stands to the moments since its timeline started. -/
structure Timeline (w : Throttle) (start now : Int) (since : List Moment) : Prop where
  index_le : w.index ≤ w.lengths.length
  deadline : w.index < w.lengths.length → w.deadline = start + (w.lengths.take (w.index + 1)).sum
  /-- A window is entered behind the deadline of the one before it. -/
  entered : 0 < w.index → start + (w.lengths.take w.index).sum < now
  budget : w.index < w.lengths.length → w.budget + windowBytes w.index since = w.fullBudget
  bounded : ∀ i < w.lengths.length, windowBytes i since ≤ w.fullBudget
  /-- Nothing has left yet in the windows that are still to come. -/
  ahead : ∀ i, w.index < i → windowBytes i since = 0
  /-- What has left has left within its window. -/
  timely : ∀ m ∈ since, ∀ t ∈ m.returnedGradient?, ∀ i ∈ m.before.queue.window?,
    (i < w.lengths.length → m.before.now ≤ start + (w.lengths.take (i + 1)).sum) ∧
      (0 < i → start + (w.lengths.take i).sum < m.before.now)

namespace Timeline

variable {w w' : Throttle} {start now : Int} {since : List Moment} {m : Moment}

/-- The timeline starts in the first window, with nothing released. -/
theorem ofRestarted (t : Task) (w : Throttle) (start now : Int) :
    ((w.restarted start).waiting t).Timeline start now [] where
  index_le := Nat.zero_le _
  deadline hindex := by simp [restarted, waiting, ← headD_eq_sum_take]
  entered hindex := absurd hindex (Nat.lt_irrefl 0)
  budget _ := rfl
  bounded _ _ := Nat.zero_le _
  ahead _ _ := rfl
  timely _ hm := by cases hm

/-- A moment in which no gradient leaves is later, and nothing else. -/
theorem idle (h : w.Timeline start now since) (hnow : now ≤ m.after.now)
    (hreturned : m.returnedGradient? = none) : w.Timeline start m.after.now (since ++ [m]) where
  index_le := h.index_le
  deadline := h.deadline
  entered hindex := Int.lt_of_lt_of_le (h.entered hindex) hnow
  budget hindex := by
    simpa [Moment.bytesIn_of_returnedGradient?_eq_none hreturned] using h.budget hindex
  bounded i hi := by
    simpa [Moment.bytesIn_of_returnedGradient?_eq_none hreturned] using h.bounded i hi
  ahead i hi := by
    simpa [Moment.bytesIn_of_returnedGradient?_eq_none hreturned] using h.ahead i hi
  timely m' hm' t ht := by
    rcases List.mem_append.mp hm' with hm' | hm'
    · exact h.timely m' hm' t ht
    · rw [List.mem_singleton.mp hm', hreturned] at ht
      cases ht

/-- More pending gradients do not matter. -/
theorem waiting (h : w.Timeline start now since) (t : Task) :
    (w.waiting t).Timeline start now since :=
  ⟨h.index_le, h.deadline, h.entered, h.budget, h.bounded, h.ahead, h.timely⟩

/-- The next window is entered behind the deadline, with nothing released in it. -/
theorem nextWindow (h : w.Timeline start now since) (hexpired : w.IsExpired now) :
    w.nextWindow.Timeline start now since where
  index_le := hexpired.2
  deadline hindex := deadline_nextWindow hindex (h.deadline hexpired.2)
  entered _ := by
    have hpassed : w.deadline < now := hexpired.1
    rwa [h.deadline hexpired.2] at hpassed
  budget _ := by
    have hahead : windowBytes (w.index + 1) since = 0 := h.ahead _ (Nat.lt_succ_self _)
    simp [Throttle.nextWindow, hahead]
  bounded := h.bounded
  ahead i hi := h.ahead i (Nat.lt_of_succ_lt hi)
  timely := h.timely

/-- A gradient leaves before the deadline, and within the budget. -/
theorem releasing (h : w.Timeline start m.before.now since) (hnow : m.before.now ≤ m.after.now)
    (hwindow : m.before.queue.window? = some w.index) {t : Task}
    (hreturned : m.returnedGradient? = some t.released) (hrunning : ¬ w.IsExpired m.before.now)
    (hroom : w.hasRoom t.len = true) (later : List Task) :
    (w.releasing t later).Timeline start m.after.now (since ++ [m]) := by
  have hhere : m.bytesIn w.index = t.len := by
    simp [Moment.bytesIn, hwindow, hreturned, Task.released]
  have helsewhere : ∀ i, i ≠ w.index → m.bytesIn i = 0 := by
    intro i hi
    simp [Moment.bytesIn, hwindow, hi.symm]
  -- while windows are metered, what leaves is covered, so the budget is not cut off at zero
  have hbudget : w.index < w.lengths.length →
      w.budget - t.len + windowBytes w.index (since ++ [m]) = w.fullBudget := by
    intro hindex
    have hcovered : t.len ≤ w.budget := by
      simpa [hasRoom, isExhausted, Nat.not_le.mpr hindex] using hroom
    have hbefore := h.budget hindex
    rw [windowBytes_concat, hhere]
    omega
  refine ⟨h.index_le, h.deadline, fun hindex => Int.lt_of_lt_of_le (h.entered hindex) hnow,
    hbudget, ?_, ?_, ?_⟩
  · intro i hi
    by_cases hwhere : i = w.index
    · have hsum := hbudget (hwhere ▸ hi)
      rw [hwhere]
      exact hsum ▸ Nat.le_add_left _ _
    · rw [windowBytes_concat, helsewhere i hwhere]
      exact h.bounded i hi
  · intro i hi
    rw [windowBytes_concat, helsewhere i (Nat.ne_of_gt hi)]
    exact h.ahead i hi
  · intro m' hm' u hu i hi
    rcases List.mem_append.mp hm' with hm' | hm'
    · exact h.timely m' hm' u hu i hi
    · rw [List.mem_singleton.mp hm'] at hi ⊢
      cases hwindow.symm.trans hi
      refine ⟨fun hindex => ?_, h.entered⟩
      have hdeadline : m.before.now ≤ w.deadline :=
        Int.not_lt.mp fun hpassed => hrunning ⟨hpassed, hindex⟩
      exact h.deadline hindex ▸ hdeadline

/-- An action that does not restart the timeline keeps to it, and goes one window on if it
rolls. -/
theorem onThrottle {rolls : Nat} (h : w.Timeline start m.before.now since)
    (hm : m.OnThrottle w rolls w') (hnow : m.before.now ≤ m.after.now)
    (hwindow : m.before.queue.window? = some w.index)
    (hcontinues : ∀ t, m.submittedGradient? = some t → w.isHead t.name = false) :
    w'.Timeline start m.after.now (since ++ [m]) ∧ w'.index = w.index + rolls := by
  cases hm with
  | restarted hsubmitted hhead => simp [hcontinues _ hsubmitted] at hhead
  | submitted _ _ hreturned => exact ⟨(h.waiting _).idle hnow hreturned, rfl⟩
  | rolled _ hexpired _ hreturned => exact ⟨(h.nextWindow hexpired).idle hnow hreturned, rfl⟩
  | released _ hrunning hroom _ hreturned =>
    exact ⟨h.releasing hnow hwindow hreturned hrunning hroom _, rfl⟩
  | other _ hreturned => exact ⟨h.idle hnow hreturned, rfl⟩

end Timeline

end Throttle

/-! ### Runs -/

namespace Session

/-- The throttle of a session keeps to the timeline that the last head of an iteration started, and
every action along the way moves the window as it should. -/
structure Meters (lengths : List Int) (budget : Nat) (headName : Option String) (h : List Moment)
    (s : Session) (w : Throttle) : Prop where
  throttles : s.queue.Throttles w
  plan : w.plan = (lengths, budget, headName)
  moves : ∀ m ∈ h, m.MovesWindow headName
  timeline : ∀ before restart since, h = before ++ restart :: since →
    restart.StartsIteration headName → (∀ m ∈ since, ¬ m.StartsIteration headName) →
      w.Timeline restart.before.now s.now since ∧
        s.queue.stats.windowRolls = restart.before.queue.stats.windowRolls + w.index

variable {lengths : List Int} {budget : Nat} {headName : Option String} {h : List Moment}
  {m : Moment} {w : Throttle}

/-- The head of an iteration enters the queue exactly when its throttle takes it for one. -/
private theorem startsIteration_iff (hhead : w.headName = headName) :
    m.StartsIteration headName ↔
      ∃ t, m.submittedGradient? = some t ∧ w.isHead t.name = true := by
  simp only [Throttle.isHead_eq_true_iff, hhead]
  constructor
  · rintro ⟨t, part, hsubmitted, hpart⟩
    exact ⟨t, hsubmitted, part, hpart⟩
  · rintro ⟨t, hsubmitted, part, hpart⟩
    exact ⟨t, part, hsubmitted, hpart⟩

/-- One more answered moment keeps the invariant if the clock does not go back. -/
theorem Meters.act (hbefore : Meters lengths budget headName h m.before w)
    (hanswered : m.outcome.IsAnswered) (hnow : m.before.now ≤ m.after.now) :
    ∃ w', Meters lengths budget headName (h ++ [m]) m.after w' := by
  obtain ⟨w', rolls, hthrottles, hm, hrolls⟩ := Moment.onThrottle hbefore.throttles hanswered
  have hstarts : m.StartsIteration headName ↔
      ∃ t, m.submittedGradient? = some t ∧ w.isHead t.name = true :=
    startsIteration_iff (congrArg (fun plan => plan.2.2) hbefore.plan)
  have hpolicy : m.before.queue.policy = .throttle w := hbefore.throttles.policy
  refine ⟨w', hthrottles, hm.plan.trans hbefore.plan, ?_, ?_⟩
  · intro m' hm'
    rcases List.mem_append.mp hm' with hm' | hm'
    · exact hbefore.moves m' hm'
    · rw [List.mem_singleton.mp hm']
      refine ⟨w, w', hpolicy, hthrottles.policy, ?_⟩
      rw [hstarts]
      cases hm with
      | restarted hsubmitted hhead =>
        exact .inr (.inr ⟨⟨_, hsubmitted, hhead⟩, rfl, hrolls⟩)
      | submitted hsubmitted hother => exact .inl ⟨by simp [hsubmitted, hother], rfl, hrolls⟩
      | rolled haction _ _ hreturned => exact .inr (.inl ⟨haction, hreturned, rfl, hrolls⟩)
      | released _ _ _ hnone | other hnone => exact .inl ⟨by simp [hnone], rfl, hrolls⟩
  · intro before restart since heq hrestart hsince
    rcases List.eq_nil_or_concat' since with rfl | ⟨since', m', rfl⟩
    -- the timeline starts with the moment itself
    · obtain ⟨rfl, hsame⟩ := List.append_inj' heq rfl
      cases hsame
      obtain ⟨t, hsubmitted, hhead⟩ := hstarts.mp hrestart
      cases hm with
      | restarted hsubmitted' =>
        exact ⟨.ofRestarted _ w _ _, hrolls⟩
      | submitted hsubmitted' hother =>
        cases hsubmitted.symm.trans hsubmitted'
        simp [hhead] at hother
      | rolled _ _ hnone | released _ _ _ hnone | other hnone => simp [hnone] at hsubmitted
    -- the timeline goes on
    · have hsplit : h ++ [m] = (before ++ restart :: since') ++ [m'] := by simpa using heq
      obtain ⟨hearlier, hsame⟩ := List.append_inj' hsplit rfl
      cases hsame
      obtain ⟨htimeline, hcount⟩ := hbefore.timeline before restart since' hearlier hrestart
        fun m' hm' => hsince m' (by simp [hm'])
      have hcontinues : ∀ t, m.submittedGradient? = some t → w.isHead t.name = false := by
        intro t hsubmitted
        have hnot := hsince m (by simp)
        rw [hstarts] at hnot
        simpa using fun hhead => hnot ⟨t, hsubmitted, hhead⟩
      obtain ⟨htimeline', hindex⟩ :=
        htimeline.onThrottle hm hnow hbefore.throttles.window? hcontinues
      exact ⟨htimeline', by rw [hrolls, hcount, hindex, Nat.add_assoc]⟩

end Session

/-- **Metering by windows.** Along every run without faults and with a clock that never goes back,
an action moves the window by one at most, and back to the first one only with the head of an
iteration. With `T` the instant at which the last head has entered: a running window `i` ends at
`T + w₀ + … + wᵢ`; a gradient leaves in it no later than that, and behind the end of the window
before; no window lets more bytes go than the budget; and since `T` as many windows have been
entered as the index says, which are no more than there are. -/
theorem window_metering {config : QueueConfig} {role : Role} {plan : WindowPlan} {s : Session}
    (hs : Queue.create .push config role = .ok s.queue)
    (hstrategy : config.strategy = .timeWindow) (hplan : config.window = some plan)
    (actions : List Action) (hanswered : ∀ m ∈ s.history actions, m.outcome.IsAnswered)
    (hclock : ∀ m ∈ s.history actions, m.before.now ≤ m.after.now) :
    let history := s.history actions
    let now := s.after actions
    (∀ m ∈ history, m.MovesWindow config.beginName) ∧
    ∃ w, now.queue.policy = .throttle w ∧
      ∀ before restart since, history = before ++ restart :: since →
        restart.StartsIteration config.beginName →
        (∀ m ∈ since, ¬ m.StartsIteration config.beginName) →
        let windowEnd := fun i => restart.before.now + (plan.lengths.take (i + 1)).sum
        (w.index < plan.lengths.length → w.deadline = windowEnd w.index) ∧
        (∀ m ∈ since, ∀ t ∈ m.returnedGradient?, ∀ i ∈ m.before.queue.window?,
          (i < plan.lengths.length → m.before.now ≤ windowEnd i) ∧
          (0 < i → windowEnd (i - 1) < m.before.now)) ∧
        (∀ i < plan.lengths.length, windowBytes i since ≤ plan.budget) ∧
        now.queue.stats.windowRolls = restart.before.queue.stats.windowRolls + w.index ∧
        w.index ≤ plan.lengths.length := by
  dsimp only
  have hthrottles := Queue.throttles_create hs hstrategy hplan
  have hstart : s.Meters plan.lengths plan.budget config.beginName []
      (.start plan config.beginName) :=
    ⟨hthrottles, rfl, by simp, fun before restart since heq => by simp at heq⟩
  obtain ⟨w, hmeters⟩ := Session.history_induction
    (I := fun h s' => (∀ m ∈ h, m.outcome.IsAnswered) → (∀ m ∈ h, m.before.now ≤ m.after.now) →
      ∃ w, s'.Meters plan.lengths plan.budget config.beginName h w)
    (fun _ _ => ⟨_, hstart⟩)
    (fun h m hbefore hanswered hclock => by
      obtain ⟨w, hmeters⟩ := hbefore (fun m' hm' => hanswered m' (List.mem_append_left _ hm'))
        fun m' hm' => hclock m' (List.mem_append_left _ hm')
      exact hmeters.act (hanswered m (by simp)) (hclock m (by simp)))
    actions hanswered hclock
  refine ⟨hmeters.moves, w, hmeters.throttles.policy, ?_⟩
  intro before restart since heq hrestart hsince
  obtain ⟨htimeline, hcount⟩ := hmeters.timeline before restart since heq hrestart hsince
  have hlengths : w.lengths = plan.lengths := congrArg Prod.fst hmeters.plan
  have hbudget : w.fullBudget = plan.budget := congrArg (fun p => p.2.1) hmeters.plan
  rw [← hlengths, ← hbudget]
  refine ⟨htimeline.deadline, ?_, htimeline.bounded, hcount, htimeline.index_le⟩
  intro m hm t ht i hi
  obtain ⟨hend, hbegin⟩ := htimeline.timely m hm t ht i hi
  refine ⟨hend, fun hpos => ?_⟩
  rw [Nat.sub_add_cancel hpos]
  exact hbegin hpos

/-! ### A run through two windows -/

/-- A session around a fresh push queue that meters its gradients by a plan. -/
def Session.ofPlan (plan : WindowPlan) (headName : Option String) : Session where
  queue :=
    { stage := .push, strategy := .timeWindow, gated := false, scanned := { ordered := false }
      credit := .unmetered, policy := .throttle (.start plan headName) }

theorem Session.create_ofPlan {plan : WindowPlan} (h : plan.validate = .ok ())
    (headName : Option String) :
    Queue.create .push { strategy := .timeWindow, window := some plan, beginName := headName } {} =
      .ok (ofPlan plan headName).queue := by
  have hvalid : QueueConfig.validate
      { strategy := .timeWindow, window := some plan, beginName := headName } = .ok () := by
    simp [QueueConfig.validate, QueueConfig.checkedBudget, QueueConfig.effectiveMultiplier,
      QueueConfig.requireWindow, wordBound, bind, Except.bind, h]
  simp only [Queue.create, hvalid]
  rfl

/-- Two windows of half a millisecond each. -/
def halvesPlan : WindowPlan := { backwardMillis := [0.5, 0.5], budget := 10 }

theorem lengths_halvesPlan : halvesPlan.lengths = [500, 500] := by decide +kernel

/-- The head of an iteration. -/
def headTask : Task := { name := "fc_gradient", key := 1, priority := 0, len := 8 }

/-- A gradient behind the head. No window of `halvesPlan` has room for both. -/
def tailTask : Task := { name := "conv_gradient", key := 2, priority := -1, len := 8 }

/-- What follows the head of an iteration: the head leaves in the first window, and the other
gradient in the second one. -/
def rollingRun : List Action :=
  [.submit tailTask, .dispatch, .dispatch, .change (.advance 501), .dispatch, .dispatch]

/-- The head of a second iteration enters while the last window of the first one runs. -/
theorem window_metering_rollingRun :
    let fresh := Session.ofPlan halvesPlan (some "fc")
    let first := .submit headTask :: rollingRun
    let actions := first ++ .submit headTask :: rollingRun
    let restart : Moment := ⟨fresh.after first, .submit headTask⟩
    let since := restart.after.history rollingRun
    Queue.create .push
        { strategy := .timeWindow, window := some halvesPlan, beginName := some "fc" } {} =
          .ok fresh.queue ∧
      (∀ m ∈ fresh.history actions, m.outcome.IsAnswered) ∧
      (∀ m ∈ fresh.history actions, m.before.now ≤ m.after.now) ∧
      fresh.history actions = fresh.history first ++ restart :: since ∧
      restart.StartsIteration (some "fc") ∧ (∀ m ∈ since, ¬ m.StartsIteration (some "fc")) ∧
      restart.before.now = 501 ∧ restart.before.queue.window? = some 1 ∧
      (since.filterMap fun m => m.returnedGradient?.map fun t => (t.name, m.before.now)) =
        [("fc_gradient", 501), ("conv_gradient", 1002)] ∧
      ∃ w, (fresh.after actions).queue.policy = .throttle w ∧
        w.index = 1 ∧ w.deadline = 501 + (500 + 500) ∧
        (∀ m ∈ since, ∀ t ∈ m.returnedGradient?, m.before.queue.window? = some 1 →
          501 + 500 < m.before.now ∧ m.before.now ≤ w.deadline) ∧
        windowBytes 0 since ≤ 10 ∧ windowBytes 1 since ≤ 10 ∧
        (fresh.after actions).queue.stats.windowRolls =
          restart.before.queue.stats.windowRolls + 1 := by
  intro fresh first actions restart since
  have hvalid : halvesPlan.validate = .ok () := rfl
  have hs := Session.create_ofPlan hvalid (some "fc")
  have hanswered : ∀ m ∈ fresh.history actions, m.outcome.IsAnswered := by decide +kernel
  have hclock : ∀ m ∈ fresh.history actions, m.before.now ≤ m.after.now := by decide +kernel
  have hsplit : fresh.history actions = fresh.history first ++ restart :: since :=
    fresh.history_append_cons first (.submit headTask) rollingRun
  have hrestart : restart.StartsIteration (some "fc") := by decide +kernel
  have hsince : ∀ m ∈ since, ¬ m.StartsIteration (some "fc") := by decide +kernel
  have hstart : restart.before.now = 501 := by decide +kernel
  have hwindow : (fresh.after actions).queue.window? = some 1 := by decide +kernel
  obtain ⟨-, w, hpolicy, htimeline⟩ :=
    window_metering (s := fresh) hs rfl rfl actions hanswered hclock
  obtain ⟨hdeadline, htimely, hbytes, hrolls, -⟩ := htimeline _ restart since hsplit hrestart hsince
  have hindex : w.index = 1 :=
    Option.some.inj ((Queue.window?_of_policy hpolicy).symm.trans hwindow)
  rw [hindex, hstart, lengths_halvesPlan] at hdeadline
  rw [hstart, lengths_halvesPlan] at htimely
  rw [lengths_halvesPlan] at hbytes
  rw [hindex] at hrolls
  have hends : w.deadline = 501 + (500 + 500) := hdeadline (by decide)
  refine ⟨hs, hanswered, hclock, hsplit, hrestart, hsince, hstart, by decide +kernel,
    by decide +kernel, w, hpolicy, hindex, hends, ?_, hbytes 0 (by decide), hbytes 1 (by decide),
    hrolls⟩
  intro m hm t ht hi
  obtain ⟨hend, hbegin⟩ := htimely m hm t ht 1 hi
  refine ⟨hbegin (by decide), ?_⟩
  rw [hends]
  exact hend (by decide)

end TensorDispatch
