import TensorDispatch.Proofs.Admission
import TensorDispatch.Proofs.Queue.Interference
import TensorDispatch.Proofs.Queue.Numbering
import TensorDispatch.Proofs.Throttle.Overflow

/-!
# Draining a throttle

A throttle holds gradients back for as long as its timeline lasts, and no longer. Once the clock has
left all of its windows behind, each poll enters one of them, and behind the last one each poll lets
a gradient go, whatever its bytes.

* `Throttle.Overdue` — all windows that are left have passed. Polls keep it so
  (`Throttle.Overdue.poll_left`, `Throttle.Overdue.poll_first`);
* `Throttle.answers` — what the polls of an overdue throttle let go, one after the other;
* `Session.Drains` — nothing but the throttle holds a gradient back. `Session.Drains.dispatch` is
  the step, and `Session.Drains.polls` the whole run;
* `overdue_throttle_drains` — along every run, an overdue throttle lets all of its gradients go.
-/

namespace TensorDispatch

open scoped List

/-! ### Throttles -/

namespace Throttle

variable {w : Throttle} {now : Int}

/-- The number of windows that are still to be left. -/
def left (w : Throttle) : Nat := w.lengths.length - w.index

/-- The deadline of the window that is this many windows ahead. -/
def deadlineIn (k : Nat) (w : Throttle) : Int :=
  w.deadline + ((w.lengths.drop (w.index + 1)).take k).sum

theorem deadlineIn_nextWindow (k : Nat) (w : Throttle) :
    w.nextWindow.deadlineIn k = w.deadlineIn (k + 1) := by
  have hsplit : w.lengths.drop (w.index + 1) =
      w.lengths[w.index + 1]?.toList ++ w.lengths.drop (w.index + 1 + 1) := by
    by_cases hnext : w.index + 1 < w.lengths.length
    · rw [List.drop_eq_getElem_cons hnext, List.getElem?_eq_getElem hnext]
      rfl
    · rw [List.getElem?_eq_none (by omega), List.drop_eq_nil_of_le (by omega),
        List.drop_eq_nil_of_le (by omega)]
      rfl
  simp only [deadlineIn, nextWindow, hsplit]
  cases hlength : w.lengths[w.index + 1]? with
  | none =>
    rw [List.getElem?_eq_none_iff] at hlength
    simp [List.drop_eq_nil_of_le (show w.lengths.length ≤ w.index + 1 + 1 by omega)]
  | some length => simp [Int.add_assoc]

/-- All windows that are left have passed, and their deadlines fit the clock. While there is a
window left, so is a gradient. -/
structure Overdue (w : Throttle) (now : Int) : Prop where
  bounded : w.index ≤ w.lengths.length
  waiting : w.index < w.lengths.length → w.pending.tasks ≠ []
  passed : ∀ k, w.index + k < w.lengths.length →
    IsSigned (w.deadlineIn k) ∧ w.deadlineIn k < now

/-- What the polls of an overdue throttle let go: nothing for each window that is left, and then one
gradient after the other. -/
def answers (w : Throttle) : List (Option Task) :=
  List.replicate w.left none ++ w.pending.tasks.map fun t => some t.released

/-- A roll enters the next window, even if the deadline of this one does not fit the clock. -/
theorem index_roll (w : Throttle) : w.roll.state.index = w.index + 1 := by
  unfold roll
  dsimp only
  split
  · rfl
  · split <;> rfl

/-- While a window is left, a poll enters the next one. -/
theorem Overdue.poll_left (h : w.Overdue now) (hleft : w.index < w.lengths.length)
    (admits : Task → Bool) (stats : Stats) :
    w.poll admits now stats = .answered none (w.nextWindow, stats.countRoll) ∧
      w.nextWindow.Overdue now := by
  have hexpired : w.IsExpired now := by
    refine ⟨?_, hleft⟩
    simpa [deadlineIn] using (h.passed 0 hleft).2
  have hroll : w.roll.IsAnswered := by
    rw [isAnswered_roll_iff]
    intro d hd
    obtain ⟨length, hlength, rfl⟩ := Option.map_eq_some_iff.mp hd
    obtain ⟨hnext, rfl⟩ := List.getElem?_eq_some_iff.mp hlength
    have hone := (h.passed 1 hnext).1
    rwa [deadlineIn, List.drop_eq_getElem_cons hnext, List.take_succ_cons, List.take_zero,
      List.sum_singleton] at hone
  refine ⟨?_, hleft, fun _ => h.waiting hleft, fun k hk => ?_⟩
  · have hwaiting : ¬ w.pending.tasks.isEmpty = true := by simpa using h.waiting hleft
    rw [poll, if_neg hwaiting, if_pos hexpired, roll_of_isAnswered hroll]
    rfl
  · rw [deadlineIn_nextWindow]
    have hk : w.index + 1 + k < w.lengths.length := hk
    exact h.passed (k + 1) (by omega)

/-- Behind the last window, a poll lets the first gradient go, whatever its bytes. -/
theorem Overdue.poll_first (h : w.Overdue now) (hpast : w.lengths.length ≤ w.index) {t : Task}
    {later : List Task} (htasks : w.pending.tasks = t :: later) {admits : Task → Bool}
    (hadmits : admits t = true) (stats : Stats) :
    w.poll admits now stats = .answered (some t) (w.releasing t later, stats) ∧
      (w.releasing t later).Overdue now := by
  have hrunning : ¬ w.IsExpired now := fun hexpired => absurd hexpired.2 (by omega)
  have hroom : w.hasRoom t.len = true := by simp [hasRoom, isExhausted, hpast]
  refine ⟨?_, h.bounded, fun hleft => absurd hpast (Nat.not_le.mpr hleft), h.passed⟩
  simp [poll, htasks, hrunning, releaseFirst, hroom, hadmits, releasing]

end Throttle

/-! ### Sessions -/

/-- No action enters a window behind the last one. -/
theorem Moment.index_turned_le (m : Moment) {w : Throttle} (h : w.index ≤ w.lengths.length) :
    (m.turned w).index ≤ w.lengths.length := by
  unfold turned
  split
  · split
    · rw [Throttle.state_restart]
      exact Nat.zero_le _
    · exact h
  · split
    · rename_i hrolls
      rw [Throttle.index_roll]
      exact hrolls.2.2
    · exact h
  · exact h

/-- No action lowers a flag. -/
theorem Moment.raised_after {m : Moment} {flag : String} (h : flag ∈ m.before.readiness.raised) :
    flag ∈ m.after.readiness.raised := by
  obtain ⟨s, a⟩ := m
  cases a with
  | submit t => exact h
  | dispatch =>
    rw [after, outcome_dispatch, s.readiness_dispatch, Queue.raised_acknowledgeAll]
    exact h
  | dispatchKey key =>
    rw [after, outcome_dispatchKey, s.readiness_dispatchKey]
    exact h
  | finish len => exact h
  | change c =>
    cases c with
    | raise other => exact List.mem_cons_of_mem other h
    | contribute key =>
      cases htable : s.readiness.table <;>
        simpa [after, outcome, Session.act, Session.apply, Session.step, htable] using h
    | _ => exact h

namespace Session

/-- The throttle of a session is overdue, and nothing else holds a gradient back: no credit is
counted, no table is consulted, no control waits, and all gradients are ready. -/
structure Drains (s : Session) (now : Int) (w : Throttle) : Prop where
  policy : s.queue.policy = .throttle w
  overdue : w.Overdue now
  credit : s.queue.credit = .unmetered
  table : s.readiness.table = none
  controls : s.queue.scanned.tasks = []
  ready : ∀ t ∈ w.pending.tasks, ∀ flag ∈ t.flag, flag ∈ s.readiness.raised

namespace Drains

variable {s : Session} {m : Moment} {now : Int} {w w' : Throttle}

theorem admits (h : s.Drains now w) {t : Task} (ht : t ∈ w.pending.tasks) :
    s.queue.admits s.readiness t = true := by
  rw [Queue.admits_eq_true_iff]
  refine ⟨h.ready t ht, fun hmetered => ?_, fun _ table htable => ?_⟩
  · simp [h.credit, Credit.isMetered] at hmetered
  · simp [h.table] at htable

/-- Whatever is done without a submission, only the throttle has to be looked at. -/
theorem of_moment (h : m.before.Drains now w) (hquiet : ∀ t, m.action ≠ .submit t)
    (hpolicy : m.after.queue.policy = .throttle w') (hoverdue : w'.Overdue now)
    (hpending : ∀ t ∈ w'.pending.tasks, t ∈ w.pending.tasks) : m.after.Drains now w' where
  policy := hpolicy
  overdue := hoverdue
  credit := unmetered_after h.credit [m.action]
  table := by rw [m.table_after, h.table, Option.map_none]
  controls := by
    have hm := m.onScanned
    generalize m.after.queue.scanned = controls at hm ⊢
    cases hm with
    | @joined t hsubmitted =>
      obtain ⟨s, a⟩ := m
      cases a with
      | submit u => exact absurd rfl (hquiet u)
      | _ => cases hsubmitted
    | kept _ htasks =>
      rw [h.controls] at htasks
      exact List.sublist_nil.mp htasks
  ready t ht flag hflag := Moment.raised_after (h.ready t (hpending t ht) flag hflag)

/-- What is neither a submission nor a dispatch leaves the throttle alone. -/
theorem of_other (h : m.before.Drains now w) (hquiet : ∀ t, m.action ≠ .submit t)
    (hother : m.action ≠ .dispatch) : m.after.Drains now w := by
  refine h.of_moment hquiet ?_ h.overdue fun _ ht => ht
  obtain ⟨s, a⟩ := m
  have hpolicy : s.queue.policy = .throttle w := h.policy
  cases a with
  | submit t => exact absurd rfl (hquiet t)
  | dispatch => exact absurd rfl hother
  | dispatchKey key =>
    obtain ⟨f, hrefused⟩ := dispatchKey_of_policy_ne_plain (s := s) (by simp [hpolicy]) key
    rw [Moment.after, Moment.outcome_dispatchKey, hrefused]
    exact hpolicy
  | finish len => exact Queue.policy_finish_throttle hpolicy len
  | change c =>
    rw [Moment.queue_after_change]
    exact hpolicy

/-- A dispatch ends as the poll of the throttle does. -/
theorem of_poll (h : s.Drains now w) {t : Option Task} {stats : Stats}
    (hpoll : w.poll (s.queue.admits s.readiness) s.now s.queue.stats = .answered t (w', stats))
    (hoverdue : w'.Overdue now) (hpending : ∀ u ∈ w'.pending.tasks, u ∈ w.pending.tasks) :
    s.dispatch.result = .ok (t.map Task.released) ∧ s.dispatch.state.Drains now w' ∧
      s.dispatch.state.queue.stats.windowRolls = stats.windowRolls := by
  obtain ⟨hpolicy, hpolled, hcase⟩ := s.dispatch_policy_cases
  have hasked : s.queue.chooseGradient s.readiness s.now =
      .answered t { s.queue with policy := .throttle w', stats } := by
    simp [Queue.chooseGradient, h.policy, hpoll, Outcome.within, Outcome.answered]
  rw [hasked] at hpolicy hpolled hcase
  refine ⟨?_, Drains.of_moment (m := ⟨s, .dispatch⟩) h (by simp) hpolicy hoverdue hpending,
    (Stats.polled_eq_iff.mp hpolled).2.1⟩
  rcases hcase with ⟨f, hfault, -⟩ | ⟨u, hsome, hresult, -⟩ | ⟨hnone, hresult, -⟩
  · cases hfault
  · cases hsome
    exact hresult
  · cases hnone
    rw [hresult, h.controls]
    rfl

/-- A dispatch takes the next answer, and enters a window while one is left. -/
theorem dispatch (h : s.Drains s.now w) :
    ∃ w', s.dispatch.state.Drains s.now w' ∧ w'.left = w.left - 1 ∧ w'.answers = w.answers.tail ∧
      s.dispatch.result = .ok (w.answers[0]?.getD none) ∧
      s.dispatch.state.queue.stats.windowRolls =
        s.queue.stats.windowRolls + if 0 < w.left then 1 else 0 := by
  by_cases hleft : w.index < w.lengths.length
  · obtain ⟨hpoll, hoverdue⟩ :=
      h.overdue.poll_left hleft (s.queue.admits s.readiness) s.queue.stats
    obtain ⟨hresult, hdrains, hrolls⟩ := h.of_poll hpoll hoverdue fun _ ht => ht
    obtain ⟨n, hn⟩ : ∃ n, w.left = n + 1 := ⟨w.lengths.length - w.index - 1, by
      simp only [Throttle.left]
      omega⟩
    have hnext : w.nextWindow.left = n := by
      simp only [Throttle.left, Throttle.nextWindow] at hn ⊢
      omega
    refine ⟨w.nextWindow, hdrains, by omega, ?_, ?_, ?_⟩
    · simp only [Throttle.answers, hnext, hn]
      rfl
    · rw [hresult, Throttle.answers, hn]
      rfl
    · rw [hrolls, hn, if_pos (Nat.succ_pos n)]
      rfl
  · have hnone : w.left = 0 := Nat.sub_eq_zero_of_le (Nat.le_of_not_lt hleft)
    rw [hnone, if_neg (Nat.lt_irrefl 0), Nat.add_zero]
    cases htasks : w.pending.tasks with
    | nil =>
      have hpoll : w.poll (s.queue.admits s.readiness) s.now s.queue.stats =
          .answered none (w, s.queue.stats) := by simp [Throttle.poll, htasks]
      obtain ⟨hresult, hdrains, hrolls⟩ := h.of_poll hpoll h.overdue fun _ ht => ht
      exact ⟨w, hdrains, hnone, by simp [Throttle.answers, hnone, htasks],
        by simp [hresult, Throttle.answers, hnone, htasks], hrolls⟩
    | cons t later =>
      obtain ⟨hpoll, hoverdue⟩ := h.overdue.poll_first (Nat.le_of_not_lt hleft) htasks
        (h.admits (by simp [htasks])) s.queue.stats
      obtain ⟨hresult, hdrains, hrolls⟩ := h.of_poll hpoll hoverdue fun u hu => by
        rw [htasks]
        exact List.mem_cons_of_mem t hu
      have hkept : (w.releasing t later).left = 0 := hnone
      refine ⟨_, hdrains, hnone, ?_, ?_, hrolls⟩
      · simp only [Throttle.answers, hkept, hnone, htasks]
        rfl
      · simp [hresult, Throttle.answers, hnone, htasks]

/-- Without a submission and with the clock standing still, the dispatches of a run take the answers
one after the other. -/
theorem polls (h : s.Drains now w) {later : List Action} (hquiet : ∀ t, .submit t ∉ later)
    (hclock : ∀ m ∈ s.history later, m.before.now = now) {k : Nat} {m : Moment}
    (hm : ((s.history later).filter fun m => m.action = .dispatch)[k]? = some m) :
    m.outcome.result = .ok (w.answers[k]?.getD none) ∧
      m.after.queue.stats.windowRolls =
        m.before.queue.stats.windowRolls + if k < w.left then 1 else 0 := by
  induction later generalizing s w k with
  | nil => simp at hm
  | cons a later ih =>
    obtain rfl : s.now = now := hclock ⟨s, a⟩ List.mem_cons_self
    have hquiet' : ∀ t, .submit t ∉ later := fun t ht => hquiet t (List.mem_cons_of_mem a ht)
    have hclock' : ∀ m ∈ (s.act a).state.history later, m.before.now = s.now :=
      fun m hm => hclock m (List.mem_cons_of_mem _ hm)
    rw [history] at hm
    by_cases ha : a = .dispatch
    · subst ha
      obtain ⟨w', h', hleft, hanswers, hresult, hrolls⟩ := h.dispatch
      rw [List.filter_cons_of_pos (by simp)] at hm
      cases k with
      | zero =>
        obtain rfl : ⟨s, .dispatch⟩ = m := by simpa using hm
        exact ⟨hresult, hrolls⟩
      | succ k =>
        rw [List.getElem?_cons_succ] at hm
        have hrest := ih h' hquiet' hclock' hm
        have htail : w'.answers[k]? = w.answers[k + 1]? := by
          rw [hanswers, List.getElem?_tail]
        have hcount : k < w'.left ↔ k + 1 < w.left := by omega
        simpa only [htail, hcount] using hrest
    · rw [List.filter_cons_of_neg (by simpa using ha)] at hm
      have hother : ∀ t, a ≠ .submit t := by
        rintro t rfl
        exact hquiet t List.mem_cons_self
      exact ih (Drains.of_other (m := ⟨s, a⟩) h hother ha) hquiet' hclock' hm

end Drains

/-- Along every run, a throttle is in one of its windows or behind the last one. -/
theorem index_le_after {s : Session} {w : Throttle} (h : s.queue.policy = .throttle w)
    (hbounded : w.index ≤ w.lengths.length) (actions : List Action) :
    ∃ w', (s.after actions).queue.policy = .throttle w' ∧ w'.plan = w.plan ∧
      w'.index ≤ w'.lengths.length := by
  refine history_induction (I := fun _ now => ∃ w', now.queue.policy = .throttle w' ∧
    w'.plan = w.plan ∧ w'.index ≤ w'.lengths.length) ⟨w, h, rfl, hbounded⟩ ?_ actions
  rintro - m ⟨w₁, hbefore, hplan, hbounded⟩
  obtain ⟨w₂, hafter, hplan', hwindow⟩ := Moment.throttle_after hbefore
  refine ⟨w₂, hafter, hplan'.trans hplan, ?_⟩
  have hlengths : w₂.lengths = w₁.lengths := congrArg Prod.fst hplan'
  rw [show w₂.index = (m.turned w₁).index from congrArg Prod.fst hwindow, hlengths]
  exact m.index_turned_le hbounded

end Session

/-! ### Runs -/

/-- **No starvation by the throttle.** Along every run, refused calls included, let the timeline be
in a window `i` of `n`, and let some gradients be pending, all of them ready. Nothing else is to
hold them back: there is no table and no control, and the clock has left the current deadline behind
and each one that the windows ahead lead to. From then on, with the clock standing still and nothing
submitted, whatever else is done, the next `n - i` dispatches hand nothing over and enter one window
each. Those behind them hand over all pending gradients, whatever their bytes, by descending
priority, then ascending key, then their submission. -/
theorem overdue_throttle_drains {config : QueueConfig} {role : Role} {plan : WindowPlan}
    {s : Session} (hs : Queue.create .push config role = .ok s.queue)
    (hstrategy : config.strategy = .timeWindow) (hplan : config.window = some plan)
    (actions : List Action) {w : Throttle}
    (hpolicy : (s.after actions).queue.policy = .throttle w)
    (htable : (s.after actions).readiness.table = none)
    (hcontrols : (s.after actions).queue.scanned.tasks = [])
    (hpending : w.pending.tasks ≠ [])
    (hready : ∀ t ∈ w.pending.tasks, ∀ flag ∈ t.flag, flag ∈ (s.after actions).readiness.raised)
    (hpassed : ∀ k, w.index + k < plan.lengths.length →
      let deadline := w.deadline + ((plan.lengths.drop (w.index + 1)).take k).sum
      IsSigned deadline ∧ deadline < (s.after actions).now)
    {later : List Action} (hquiet : ∀ t, .submit t ∉ later)
    (hclock : ∀ m ∈ (s.after actions).history later, m.before.now = (s.after actions).now) :
    ∃ waiting : List (Task × Nat),
      w.pending.tasks = waiting.map Prod.fst ∧
      waiting <+~ ((s.history actions).filterMap Moment.submitted?).zipIdx ∧
      waiting.Pairwise (Pending.Precedes true) ∧ w.index ≤ plan.lengths.length ∧
      let left := plan.lengths.length - w.index
      let answers := List.replicate left none ++ waiting.map fun e => some e.1.released
      ∀ k m, (((s.after actions).history later).filter fun m => m.action = .dispatch)[k]? = some m →
        m.outcome.result = .ok (answers[k]?.getD none) ∧
        m.after.queue.stats.windowRolls =
          m.before.queue.stats.windowRolls + if k < left then 1 else 0 := by
  have hthrottles := (Queue.throttles_create hs hstrategy hplan).policy
  have hstart : s.queue.policy.pending? = some (Throttle.start plan config.beginName).pending := by
    rw [hthrottles, Policy.pending?]
  obtain ⟨store, waiting, hstore, hordered, ⟨htasks, hsorted⟩, hsubmitted⟩ :=
    Session.exists_numbered_pending hstart rfl actions
  obtain rfl : w.pending = store := by simpa [hpolicy, Policy.pending?] using hstore
  rw [hordered] at hsorted
  obtain ⟨w', hafter, hplan', hbounded⟩ :=
    Session.index_le_after hthrottles (Nat.le_refl plan.lengths.length) actions
  obtain rfl : w = w' := by simpa [hpolicy] using hafter
  have hlengths : w.lengths = plan.lengths := congrArg Prod.fst hplan'
  have hcredit : s.queue.credit = .unmetered :=
    Queue.create_of_not_meters hs (by simp [QueueConfig.Meters])
  have hdrains : (s.after actions).Drains (s.after actions).now w :=
    { policy := hpolicy
      overdue := ⟨hbounded, fun _ => hpending, by simpa [Throttle.deadlineIn, hlengths] using hpassed⟩
      credit := Session.unmetered_after hcredit actions
      table := htable
      controls := hcontrols
      ready := hready }
  refine ⟨waiting, htasks.symm, hsubmitted, hsorted, hlengths ▸ hbounded, fun k m hm => ?_⟩
  have hanswers : w.answers = List.replicate (plan.lengths.length - w.index) none ++
      waiting.map fun e => some e.1.released := by
    simp [Throttle.answers, Throttle.left, hlengths, ← htasks]
  have hpolls := hdrains.polls hquiet hclock hm
  rwa [hanswers, Throttle.left, hlengths] at hpolls

/-- A throttle of one window, whose clock is set so that the window ends at the instant -1. -/
def endingThrottle : Session :=
  { Session.ofPlan shortPlan (some "fc") with clock := -shortPlan.lengths.headD 0 - 1 }

/-- A gradient of more bytes than a window of `shortPlan` has. -/
def largeTask : Task := { name := "bias_gradient", key := 2, priority := 1, len := 16 }

/-- The head of an iteration and a large gradient wait until the instant 0. -/
def overdueRun : List Action :=
  [.submit headTask, .submit largeTask, .change (.advance (shortPlan.lengths.headD 0 + 1))]

/-- The throttle of `endingThrottle` after `overdueRun`: both gradients wait, in the first window. -/
def overdueThrottle : Throttle :=
  (((Throttle.start shortPlan (some "fc")).restarted endingThrottle.now).waiting headTask).waiting
    largeTask

private theorem deadline_overdueThrottle : overdueThrottle.deadline = -1 := by
  show -shortPlan.lengths.headD 0 - 1 + shortPlan.lengths.headD 0 = -1
  omega

private theorem now_overdueRun : (endingThrottle.after overdueRun).now = 0 := by
  show wrapSigned (-shortPlan.lengths.headD 0 - 1 + (shortPlan.lengths.headD 0 + 1)) = 0
  rw [show -shortPlan.lengths.headD 0 - 1 + (shortPlan.lengths.headD 0 + 1) = 0 by omega]
  rfl

/-- Both gradients are accepted: the deadline that the first of them forms fits the clock, and the
second one forms none. -/
private theorem policy_overdueRun :
    (endingThrottle.after overdueRun).queue.policy = .throttle overdueThrottle ∧
      (endingThrottle.after overdueRun).queue.scanned.tasks = [] := by
  have hends := deadline_overdueThrottle
  have hfirst : (endingThrottle.queue.submit endingThrottle.now headTask).IsAnswered := by
    rw [Queue.isAnswered_submit_iff (w := .start shortPlan (some "fc")) rfl (by decide)]
    intro _ _
    rw [show endingThrottle.now + _ = overdueThrottle.deadline from rfl, hends]
    decide
  obtain ⟨-, ⟨-, hscanned₁, hpolicy₁⟩ | ⟨hcontrol, -⟩⟩ :=
    Queue.submit_throttle (w := .start shortPlan (some "fc")) rfl hfirst
  case inr => cases hcontrol
  have hsecond : ((endingThrottle.queue.submit endingThrottle.now headTask).state.submit
      endingThrottle.now largeTask).IsAnswered := by
    rw [Queue.isAnswered_submit_iff hpolicy₁ (by decide)]
    intro _ hhead
    cases hhead
  obtain ⟨-, ⟨-, hscanned₂, hpolicy₂⟩ | ⟨hcontrol, -⟩⟩ := Queue.submit_throttle hpolicy₁ hsecond
  case inr => cases hcontrol
  refine ⟨hpolicy₂, ?_⟩
  exact congrArg Pending.tasks (hscanned₂.trans hscanned₁)

theorem overdue_throttle_drains_overdueRun :
    let now := endingThrottle.after overdueRun
    let polls := (now.history [.dispatch, .dispatch, .finish 16, .dispatch]).filter
      fun m => m.action = .dispatch
    Queue.create .push
        { strategy := .timeWindow, window := some shortPlan, beginName := some "fc" } {} =
          .ok endingThrottle.queue ∧
      now.queue.policy = .throttle overdueThrottle ∧ overdueThrottle.index = 0 ∧
      overdueThrottle.budget < largeTask.len ∧
      polls.map (fun m => m.outcome.result) =
        [.ok none, .ok (some largeTask), .ok (some headTask)] := by
  intro now polls
  have hvalid : shortPlan.validate = .ok () := rfl
  have hs := Session.create_ofPlan hvalid (some "fc")
  obtain ⟨hpolicy, hcontrols⟩ := policy_overdueRun
  have hclock : ∀ m ∈ now.history [.dispatch, .dispatch, .finish 16, .dispatch],
      m.before.now = now.now := by
    intro m hm
    simp only [Session.history, List.mem_cons, List.not_mem_nil, or_false] at hm
    obtain rfl | rfl | rfl | rfl := hm
    · rfl
    · exact Session.now_dispatch _
    · exact (Session.now_dispatch _).trans (Session.now_dispatch _)
    · exact (Session.now_dispatch _).trans (Session.now_dispatch _)
  obtain ⟨waiting, htasks, -, -, -, hanswers⟩ :=
    overdue_throttle_drains (s := endingThrottle) hs rfl rfl overdueRun hpolicy rfl hcontrols
      (by decide) (by decide)
      (fun k hk => by
        obtain rfl : k = 0 := Nat.lt_one_iff.mp ((Nat.zero_add k).symm.trans_lt hk)
        rw [now_overdueRun, List.take_zero, List.sum_nil, Int.add_zero, deadline_overdueThrottle]
        decide)
      (by simp) hclock
  have hwaiting : (waiting.map fun e => some e.1.released) = [some largeTask, some headTask] := by
    have hmap := congrArg (List.map fun t => some t.released) htasks
    rw [List.map_map] at hmap
    exact hmap.symm
  simp only [hwaiting] at hanswers
  refine ⟨hs, hpolicy, rfl, by decide, ?_⟩
  have hfirst := (hanswers 0 _ rfl).1
  have hsecond := (hanswers 1 _ rfl).1
  have hthird := (hanswers 2 _ rfl).1
  show [_, _, _] = [_, _, _]
  rw [List.cons.injEq, List.cons.injEq, List.cons.injEq]
  exact ⟨hfirst, hsecond, hthird, rfl⟩

end TensorDispatch
