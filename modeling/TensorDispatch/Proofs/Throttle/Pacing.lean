import TensorDispatch.Proofs.Rehearsal.Record
import TensorDispatch.Proofs.Rehearsal.Worker
import TensorDispatch.Proofs.Throttle.Draining

/-!
# Sessions that a throttle paces

A worker whose queue meters its gradients meets the throttle and nothing else: each of its calls is
answered as long as the sums that are formed fit the clock.

* `Moment.sum?` — the sum that an action forms, a deadline or a reading of the clock;
* `Session.StaysOnClock` — no sum of a run leaves the clock;
* `Throttle.poll_of_admitted` — a poll rolls, lets the first gradient go, or holds it back;
* `Session.OnTimeline` — sessions in which nothing but a throttle holds a gradient back, with one
  lemma for each operation of a worker.
-/

namespace TensorDispatch

open scoped List
open Rehearsal (Deed settle)

/-! ### Sums -/

/-- The sum that an action forms, exactly: the reading that the clock moves to, or the deadline of
the window that is entered. -/
def Moment.sum? (m : Moment) : Option Int :=
  match m.action, m.before.queue.policy with
  | .change (.advance us), _ => some (m.before.clock + us)
  | _, .throttle w => m.deadline? w
  | _, _ => none

namespace Session

/-- Along these actions, no sum leaves the signed range. -/
def StaysOnClock (s : Session) (actions : List Action) : Prop :=
  ∀ m ∈ s.history actions, ∀ n ∈ m.sum?, IsSigned n

variable {s : Session}

@[simp] theorem staysOnClock_nil (s : Session) : s.StaysOnClock [] := by simp [StaysOnClock]

theorem staysOnClock_cons {a : Action} {actions : List Action} :
    s.StaysOnClock (a :: actions) ↔
      (∀ n ∈ Moment.sum? ⟨s, a⟩, IsSigned n) ∧ (s.act a).state.StaysOnClock actions := by
  simp only [StaysOnClock, history, List.forall_mem_cons]

theorem staysOnClock_append {as bs : List Action} :
    s.StaysOnClock (as ++ bs) ↔ s.StaysOnClock as ∧ (s.after as).StaysOnClock bs := by
  simp only [StaysOnClock, history_append, List.forall_mem_append]

end Session

/-! ### Throttles -/

namespace Throttle

variable {w : Throttle} {t : Task} {later : List Task} {now : Int}

/-- Where a gradient waits that nothing else holds back, a poll enters the next window if this one
has passed, lets the gradient go if there is room for it, and else does nothing. -/
theorem poll_of_admitted (htasks : w.pending.tasks = t :: later) {admits : Task → Bool}
    (hadmits : admits t = true) (hroll : w.IsExpired now → w.roll.IsAnswered) (stats : Stats) :
    w.poll admits now stats =
      if w.IsExpired now then .answered none (w.nextWindow, stats.countRoll)
      else if w.hasRoom t.len then .answered (some t) (w.releasing t later, stats)
      else .answered none (w, stats) := by
  have hwaiting : ¬ w.pending.tasks.isEmpty = true := by simp [htasks]
  rw [poll, if_neg hwaiting]
  by_cases hexpired : w.IsExpired now
  · rw [if_pos hexpired, if_pos hexpired, roll_of_isAnswered (hroll hexpired)]
    rfl
  · rw [if_neg hexpired, if_neg hexpired]
    cases hroom : w.hasRoom t.len <;> simp [releaseFirst, htasks, hadmits, hroom, releasing]

/-- The throttle that an accepted gradient has joined. -/
def joined (now : Int) (t : Task) (w : Throttle) : Throttle :=
  (if w.isHead t.name then w.restarted now else w).waiting t

/-- The throttle that some gradients have joined, one after the other. -/
def joinedBy (now : Int) (ts : List Task) (w : Throttle) : Throttle :=
  ts.foldl (fun w t => w.joined now t) w

theorem submit_of_fits (haccepts : w.Accepts now t) :
    w.submit now t = .answered () (w.joined now t) :=
  submit_of_isAnswered (isAnswered_submit_iff.mpr haccepts)

@[simp] theorem plan_joined (now : Int) (t : Task) (w : Throttle) :
    (w.joined now t).plan = w.plan := by
  unfold joined
  split <;> rfl

@[simp] theorem pending_joined (now : Int) (t : Task) (w : Throttle) :
    (w.joined now t).pending = w.pending.insert t := by
  unfold joined
  split <;> rfl

@[simp] theorem plan_joinedBy (now : Int) (ts : List Task) (w : Throttle) :
    (w.joinedBy now ts).plan = w.plan := by
  induction ts generalizing w with
  | nil => rfl
  | cons t ts ih => exact (ih _).trans (w.plan_joined now t)

/-- The timeline has started over if there is a head of an iteration among the gradients. -/
theorem window_joinedBy (now : Int) (ts : List Task) (w : Throttle) :
    (w.joinedBy now ts).window =
      if ts.any fun t => w.isHead t.name then (0, now + w.lengths.headD 0) else w.window := by
  induction ts generalizing w with
  | nil => rfl
  | cons t ts ih =>
    have hplan := w.plan_joined now t
    simp only [plan, Prod.mk.injEq] at hplan
    have hheads : ∀ name, (w.joined now t).isHead name = w.isHead name := fun name => by
      simp only [isHead, hplan.2.2]
    refine (ih _).trans ?_
    simp only [hheads, hplan.1, List.any_cons]
    by_cases hhead : w.isHead t.name = true
    · simp [joined, hhead, window, restarted, waiting]
    · simp [joined, hhead, window, waiting]

/-- The gradients wait in the order of an ordered store. -/
theorem pending_joinedBy (hordered : w.pending.ordered = true)
    (hsorted : w.pending.tasks.Pairwise fun t u => ¬ u.Before t) (now : Int) (ts : List Task) :
    (w.joinedBy now ts).pending.ordered = true ∧
      (w.joinedBy now ts).pending.tasks ~ w.pending.tasks ++ ts ∧
      (w.joinedBy now ts).pending.tasks.Pairwise fun t u => ¬ u.Before t := by
  induction ts generalizing w with
  | nil => exact ⟨hordered, by simp [joinedBy], hsorted⟩
  | cons t ts ih =>
    have hplace : (w.joined now t).pending.tasks = Pending.place t w.pending.tasks := by
      simp [Pending.insert, hordered]
    obtain ⟨hordered', hperm, hsorted'⟩ := ih (w := w.joined now t)
      (by rw [pending_joined]; exact hordered)
      (by rw [hplace]; exact Pending.pairwise_not_before_place hsorted)
    refine ⟨hordered', hperm.trans ?_, hsorted'⟩
    rw [hplace]
    exact ((Pending.perm_place t _).append_right ts).trans List.perm_middle.symm

end Throttle

/-- A named gradient that the throttle accepts waits with it, and is counted. -/
theorem Queue.submit_named_throttle {q : Queue} {w : Throttle} (h : q.policy = .throttle w)
    {now : Int} {t : Task} (hname : t.name.isEmpty = false) (hgradient : t.isGradient = true)
    (haccepts : w.Accepts now t) :
    ∃ stats, q.submit now t =
      .answered () { q with policy := .throttle (w.joined now t), stats } := by
  have hplace : place now t { q with stats := q.stats.countSubmitted } =
      .answered ()
        { q with policy := .throttle (w.joined now t), stats := q.stats.countSubmitted } := by
    simp [place, hgradient, h, Throttle.submit_of_fits haccepts, Outcome.within,
      Outcome.answered]
  simp only [submit, hname, hplace]
  exact ⟨_, rfl⟩

/-! ### Sessions -/

namespace Session

/-- The queue of a session meters its gradients on a clock that moves only when told to, and nothing
but the throttle holds one back. -/
structure OnTimeline (s : Session) (w : Throttle) : Prop where
  policy : s.queue.policy = .throttle w
  controls : s.queue.scanned.tasks = []
  credit : s.queue.credit = .unmetered
  readiness : s.readiness = {}
  manual : s.wallClock = none

namespace OnTimeline

variable {s : Session} {w w' : Throttle} {t : Task} {later : List Task}

/-- A fresh push queue of the time-window strategy meters its gradients. -/
theorem start {config : QueueConfig} {role : Role} {plan : WindowPlan} {q : Queue}
    (hq : Queue.create .push config role = .ok q) (hstrategy : config.strategy = .timeWindow)
    (hwindow : config.window = some plan) :
    OnTimeline { queue := q } (.start plan config.beginName) := by
  have hempty := Queue.tasks_create hq
  simp only [Queue.tasks, List.append_eq_nil_iff] at hempty
  have hunmetered : ¬ config.Meters .push role := fun hmeters => by cases hmeters.1
  exact ⟨(Queue.throttles_create hq hstrategy hwindow).policy, hempty.1,
    Queue.create_of_not_meters hq hunmetered, rfl, rfl⟩

theorem now_eq (h : s.OnTimeline w) : s.now = s.clock := by rw [now, h.manual, Option.getD_none]

/-- A task that waits for no flag is admitted. -/
theorem admits (h : s.OnTimeline w) (hflag : t.flag = none) :
    s.queue.admits s.readiness t = true := by
  simp [Queue.admits, Readiness.isReady, Readiness.isKeyReady, h.readiness, h.credit, hflag,
    Credit.admits]

/-- A dispatch ends as the poll of the throttle does, and the clock stands still. -/
theorem dispatch_of_poll (h : s.OnTimeline w) {taken : Option Task} {stats : Stats}
    (hpoll : w.poll (s.queue.admits s.readiness) s.clock s.queue.stats =
      .answered taken (w', stats))
    (hflag : ∀ t ∈ taken, t.flag = none) :
    ∃ s', s.dispatch = .answered taken s' ∧ s'.OnTimeline w' ∧ s'.clock = s.clock := by
  have hchoose : s.queue.choose s.readiness s.now =
      .answered taken { s.queue with policy := .throttle w', stats } := by
    rw [h.now_eq]
    cases taken <;>
      simp [Queue.choose, Queue.chooseGradient, h.policy, hpoll, Queue.chooseScanned,
        Pending.takeFirst?, h.controls, Outcome.within, Outcome.answered]
  cases taken with
  | none =>
    have hdispatch : s.dispatch = .answered none
        { s with queue := { s.queue with policy := .throttle w', stats } } := by
      rw [dispatch, hchoose]
      rfl
    exact ⟨_, hdispatch, { h with policy := rfl }, rfl⟩
  | some t =>
    have hreadiness : (if s.queue.gated then s.readiness.acknowledge t.key else s.readiness) =
        ({} : Readiness) := by
      rw [h.readiness]
      split <;> rfl
    have hdispatch : s.dispatch = handOver t
        { s with
          queue := { s.queue with policy := .throttle w', stats }
          readiness := {} } := by
      rw [dispatch, hchoose]
      simp only [Outcome.answered, hreadiness]
    rw [hdispatch]
    simp only [handOver, Queue.release, h.credit, Credit.acquire, Outcome.answered,
      Task.released_of_unflagged (hflag t rfl)]
    exact ⟨_, rfl, ⟨rfl, h.controls, rfl, rfl, h.manual⟩, rfl⟩

/-- While a gradient waits, a dispatch enters the next window, takes the first gradient, or finds no
room for it. -/
theorem dispatch_cases (h : s.OnTimeline w) (htasks : w.pending.tasks = t :: later)
    (hflag : t.flag = none) (hroll : w.IsExpired s.clock → w.roll.IsAnswered) :
    (w.IsExpired s.clock ∧
      ∃ s', s.dispatch = .answered none s' ∧ s'.OnTimeline w.nextWindow ∧ s'.clock = s.clock) ∨
    (¬ w.IsExpired s.clock ∧ w.hasRoom t.len = true ∧
      ∃ s', s.dispatch = .answered (some t) s' ∧ s'.OnTimeline (w.releasing t later) ∧
        s'.clock = s.clock) ∨
    (¬ w.IsExpired s.clock ∧ w.hasRoom t.len = false ∧
      ∃ s', s.dispatch = .answered none s' ∧ s'.OnTimeline w ∧ s'.clock = s.clock) := by
  have hpoll := Throttle.poll_of_admitted htasks (h.admits hflag) hroll s.queue.stats
  by_cases hexpired : w.IsExpired s.clock
  · rw [if_pos hexpired] at hpoll
    exact .inl ⟨hexpired, h.dispatch_of_poll hpoll (by simp)⟩
  · rw [if_neg hexpired] at hpoll
    cases hroom : w.hasRoom t.len with
    | true =>
      rw [if_pos hroom] at hpoll
      exact .inr (.inl ⟨hexpired, rfl, h.dispatch_of_poll hpoll (by simpa using hflag)⟩)
    | false =>
      rw [hroom, if_neg Bool.false_ne_true] at hpoll
      exact .inr (.inr ⟨hexpired, rfl, h.dispatch_of_poll hpoll (by simp)⟩)

/-- A report changes nothing that the throttle goes by. -/
theorem finish (h : s.OnTimeline w) (len : Nat) :
    ∃ s', settle (s.finish len) = .ok s' ∧ s'.OnTimeline w ∧ s'.clock = s.clock := by
  have hfinish : s.queue.finish len =
      .answered () { s.queue with stats := s.queue.stats.countFinished } := by
    simp [Queue.finish, h.policy, Queue.returnCredit, h.credit, Credit.giveBack]
  rw [Session.finish, hfinish]
  exact ⟨_, rfl, { h with }, rfl⟩

/-! The sums that the calls of a worker form. -/

theorem sum?_submit (h : s.OnTimeline w) (t : Task) :
    Moment.sum? ⟨s, .submit t⟩ =
      if w.IsStartedBy t then some (s.clock + w.lengths.headD 0) else none := by
  rw [← h.now_eq, ← Moment.deadline?_submit]
  simp [Moment.sum?, h.policy]

theorem sum?_dispatch (h : s.OnTimeline w) :
    Moment.sum? ⟨s, .dispatch⟩ = if w.Rolls s.clock then w.nextDeadline? else none := by
  rw [← h.now_eq, ← Moment.deadline?_dispatch]
  simp [Moment.sum?, h.policy]

theorem sum?_finish (h : s.OnTimeline w) (len : Nat) : Moment.sum? ⟨s, .finish len⟩ = none := by
  simp [Moment.sum?, h.policy, Moment.deadline?]

/-- A gradient with a name waits, and restarts the timeline if it is the head of an iteration. -/
theorem submit (h : s.OnTimeline w) (hname : t.name.isEmpty = false)
    (hgradient : t.isGradient = true)
    (hfits : ∀ n ∈ Moment.sum? ⟨s, .submit t⟩, IsSigned n) :
    ∃ s', settle (s.submit t) = .ok s' ∧ s'.OnTimeline (w.joined s.clock t) ∧
      s'.clock = s.clock := by
  have haccepts : w.Accepts s.now t := by
    intro hhead
    have hstarts : w.IsStartedBy t := ⟨by simpa using hname, hgradient, hhead⟩
    rw [h.sum?_submit, if_pos hstarts] at hfits
    rw [h.now_eq]
    exact hfits _ rfl
  obtain ⟨stats, hsubmit⟩ := Queue.submit_named_throttle h.policy hname hgradient haccepts
  obtain ⟨profiles, hsubmit⟩ := submit_of_answered hsubmit
  rw [hsubmit, h.now_eq]
  exact ⟨_, rfl, { h with policy := rfl }, rfl⟩

/-- All gradients of an iteration wait, and the clock stands still. -/
theorem submitAll (h : s.OnTimeline w) {tasks : List Task}
    (hgradients : ∀ t ∈ tasks, t.name.isEmpty = false ∧ t.isGradient = true)
    (hclock : s.StaysOnClock ((tasks.map Deed.submit).map Deed.action)) :
    ∃ s', Rehearsal.submitAll s tasks = .ok s' ∧ s'.OnTimeline (w.joinedBy s.clock tasks) ∧
      s'.clock = s.clock := by
  induction tasks generalizing s w with
  | nil => exact ⟨s, rfl, h, rfl⟩
  | cons t tasks ih =>
    obtain ⟨hname, hgradient⟩ := hgradients t List.mem_cons_self
    obtain ⟨hfits, hrest⟩ := staysOnClock_cons.mp hclock
    obtain ⟨s₁, hsubmit, h₁, hclock₁⟩ := h.submit hname hgradient hfits
    rw [Rehearsal.act_submit hsubmit] at hrest
    obtain ⟨s', hlater, h', hclock'⟩ :=
      ih h₁ (fun u hu => hgradients u (List.mem_cons_of_mem t hu)) hrest
    refine ⟨s', ?_, hclock₁ ▸ h', hclock'.trans hclock₁⟩
    rw [Rehearsal.submitAll, List.foldlM_cons, hsubmit]
    exact hlater

/-- Submissions stay on the clock if the first window of a timeline that starts now does. -/
theorem staysOnClock_submissions (h : s.OnTimeline w) {tasks : List Task}
    (hgradients : ∀ t ∈ tasks, t.name.isEmpty = false ∧ t.isGradient = true)
    (hfits : IsSigned (s.clock + w.lengths.headD 0)) :
    s.StaysOnClock ((tasks.map Deed.submit).map Deed.action) := by
  induction tasks generalizing s w with
  | nil => exact s.staysOnClock_nil
  | cons t tasks ih =>
    obtain ⟨hname, hgradient⟩ := hgradients t List.mem_cons_self
    have hsum : ∀ n ∈ Moment.sum? ⟨s, .submit t⟩, IsSigned n := by
      intro n hn
      rw [h.sum?_submit] at hn
      split at hn
      · cases hn
        exact hfits
      · cases hn
    obtain ⟨s₁, hsubmit, h₁, hclock₁⟩ := h.submit hname hgradient hsum
    have hlengths : (w.joined s.clock t).lengths = w.lengths :=
      congrArg Prod.fst (w.plan_joined s.clock t)
    have hfits₁ : IsSigned (s₁.clock + (w.joined s.clock t).lengths.headD 0) := by
      rwa [hclock₁, hlengths]
    refine staysOnClock_cons.mpr ⟨hsum, ?_⟩
    rw [Rehearsal.act_submit hsubmit]
    exact ih h₁ (fun u hu => hgradients u (List.mem_cons_of_mem t hu)) hfits₁

/-- Reports form no sums. -/
theorem staysOnClock_reports (h : s.OnTimeline w) (ts : List Task) :
    s.StaysOnClock ((ts.map Deed.report).map Deed.action) := by
  induction ts generalizing s with
  | nil => exact s.staysOnClock_nil
  | cons t ts ih =>
    obtain ⟨s', hfinish, h', -⟩ := h.finish t.len
    refine staysOnClock_cons.mpr ⟨?_, ?_⟩
    · simp [Deed.action, h.sum?_finish]
    · rw [Rehearsal.act_report hfinish]
      exact ih h'

end OnTimeline

end Session

end TensorDispatch
