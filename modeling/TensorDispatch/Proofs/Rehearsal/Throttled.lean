import Mathlib.Algebra.Order.BigOperators.Group.List
import TensorDispatch.Proofs.Rehearsal.Credited
import TensorDispatch.Proofs.Throttle.Pacing

/-!
# Rehearsals of a window plan

A worker whose queue is throttled waits for its windows to pass, and gives up if they take too long.
A timeline holds its gradients back for a number of idle polls that is known when it starts: one
poll enters each window that is left, and each of the others moves the clock towards the end of the
last one.

* `patience` — the most idle polls for which a timeline may still hold its gradients back. Each idle
  poll makes it smaller, whether it enters a window or finds no room in one;
* `Throttle.Paces` — the invariant of a throttle on the timeline of an iteration;
* `Worker.Paced` — the invariant of the poll loop. `Worker.Paced.turn` is the step, and
  `Worker.exists_work_of_paced` the whole loop;
* `RestsOnTimeline` — the invariant between two iterations: the clock is left anywhere, and the
  timeline of the last one may still run if the next one has a head that starts it over.
  `RestsOnTimeline.exists_runIteration` is one iteration, and `RestsOnTimeline.exists_runIterations`
  all of them;
* `staysOnClock_of_iterations` — how many iterations the clock has room for;
* `run_throttled_by_rank` — the report of a whole rehearsal.
-/

namespace TensorDispatch

open scoped List
open Rehearsal (Deed settle)

namespace Rehearsal

/-- The most idle polls for which a timeline that started at `start` may still hold its gradients
back: one for each window that is to be left, and one for each tick until the end of the last. -/
def patience (start now : Int) (w : Throttle) : Nat :=
  w.left + ((start + w.lengths.sum - now) / tickMicros + 1).toNat

/-- The idle polls of a whole timeline. -/
def pollsOf (lengths : List Int) : Nat := lengths.length + (lengths.sum / tickMicros + 1).toNat

/-- The windows have passed when all of these polls have. -/
theorem sum_le_pollsOf {lengths : List Int} (hnonneg : ∀ l ∈ lengths, 0 ≤ l) :
    lengths.sum ≤ tickMicros * pollsOf lengths := by
  have hsum := List.sum_nonneg hnonneg
  simp only [pollsOf, tickMicros]
  omega

end Rehearsal

open Rehearsal (patience pollsOf tickMicros idleLimit)

/-! ### Timelines -/

/-- Windows of no negative length end on the clock if the last of them does. -/
theorem fitsClock_of_nonneg {lengths : List Int} (hnonneg : ∀ l ∈ lengths, 0 ≤ l) {start : Int}
    (hstart : -0x8000000000000000 ≤ start) (hend : start + lengths.sum < 0x8000000000000000) :
    FitsClock lengths start := by
  intro i
  have hprefix : (lengths.take (i + 1)).sum ≤ lengths.sum :=
    (List.take_sublist _ _).sum_le_sum hnonneg
  have hpositive : 0 ≤ (lengths.take (i + 1)).sum :=
    List.sum_nonneg fun l hl => hnonneg l (List.mem_of_mem_take hl)
  exact ⟨by omega, by omega⟩

namespace Throttle

/-- The throttle is on a timeline that started at `start`, and as many idle polls as have been made
since the last gradient left, and as many as may still be made, are no more than those of the whole
timeline. The clock does not run ahead of them. -/
structure Paces (w : Throttle) (lengths : List Int) (start now : Int) (idle : Nat) : Prop where
  plan : w.lengths = lengths
  started : start ≤ now
  deadline : w.index < w.lengths.length → w.deadline = start + (w.lengths.take (w.index + 1)).sum
  idle : idle + patience start now w ≤ pollsOf lengths
  clock : now + tickMicros * patience start now w ≤ start + tickMicros * pollsOf lengths

variable {w : Throttle} {lengths : List Int} {start now : Int} {idle : Nat}

/-- A tick later, there is a poll less to wait, as long as the timeline lasts. -/
theorem patience_tick (h : now ≤ start + w.lengths.sum) :
    patience start (now + tickMicros) w + 1 = patience start now w := by
  simp only [patience, tickMicros]
  omega

theorem patience_tick_le (start now : Int) (w : Throttle) :
    patience start (now + tickMicros) w ≤ patience start now w := by
  simp only [patience, tickMicros]
  omega

/-- A window later, there is a poll less to wait. -/
theorem patience_nextWindow (h : w.index < w.lengths.length) (start now : Int) :
    patience start now w.nextWindow + 1 = patience start now w := by
  simp only [patience, left, nextWindow]
  omega

/-- If a timeline that runs is started over by one of some gradients, one of them has started it
once they have joined. -/
theorem begun_joinedBy {ts : List Task}
    (hheads : w.index < w.lengths.length → ∃ t ∈ ts, w.isHead t.name = true)
    (hindex : (w.joinedBy now ts).index < (w.joinedBy now ts).lengths.length) :
    (∃ t ∈ ts, (w.joinedBy now ts).isHead t.name = true) ∧
      (w.joinedBy now ts).deadline =
        now + ((w.joinedBy now ts).lengths.take ((w.joinedBy now ts).index + 1)).sum := by
  have hplan := w.plan_joinedBy now ts
  have hwindow := w.window_joinedBy now ts
  simp only [plan, window, Prod.mk.injEq] at hplan hwindow
  have hsome : ∃ t ∈ ts, w.isHead t.name = true := by
    by_contra hnone
    rw [if_neg (by simpa using hnone), Prod.mk.injEq] at hwindow
    exact hnone (hheads (by rwa [hplan.1, hwindow.1] at hindex))
  rw [if_pos (by simpa using hsome), Prod.mk.injEq] at hwindow
  obtain ⟨t, ht, hhead⟩ := hsome
  refine ⟨⟨t, ht, ?_⟩, ?_⟩
  · rw [← hhead]
    simp only [isHead, hplan.2.2]
  · rw [hwindow.1, hwindow.2, hplan.1, headD_eq_sum_take]

namespace Paces

/-- A timeline that starts now takes as many polls as it may take. -/
theorem begun (hlengths : w.lengths = lengths)
    (hdeadline : w.index < w.lengths.length →
      w.deadline = start + (w.lengths.take (w.index + 1)).sum) :
    w.Paces lengths start start 0 := by
  have hsum : start + lengths.sum - start = lengths.sum := by omega
  have hpatience : patience start start w ≤ pollsOf lengths := by
    simp only [patience, pollsOf, left, hlengths, hsum]
    omega
  refine ⟨hlengths, Int.le_refl start, hdeadline, by omega, ?_⟩
  simp only [tickMicros]
  omega

/-- The end of a window is no later than the end of the last one. -/
theorem deadline_le (h : w.Paces lengths start now idle) (hnonneg : ∀ l ∈ lengths, 0 ≤ l)
    (hindex : w.index < w.lengths.length) : w.deadline ≤ start + w.lengths.sum := by
  have hprefix : (w.lengths.take (w.index + 1)).sum ≤ w.lengths.sum :=
    (List.take_sublist _ _).sum_le_sum (h.plan ▸ hnonneg)
  rw [h.deadline hindex]
  omega

/-- An idle poll that enters the next window is one poll less to wait, and a tick behind it costs
no more. -/
theorem nextWindow (h : w.Paces lengths start now idle) (hindex : w.index < w.lengths.length) :
    w.nextWindow.Paces lengths start now idle ∧
      w.nextWindow.Paces lengths start (now + tickMicros) (idle + 1) := by
  have hdeadline : w.index + 1 < w.lengths.length →
      w.nextWindow.deadline = start + (w.lengths.take (w.index + 1 + 1)).sum := fun hnext =>
    deadline_nextWindow hnext (h.deadline hindex)
  have hless := patience_nextWindow hindex start now
  have htick := patience_tick_le start now w.nextWindow
  have hstarted := h.started
  have hidle := h.idle
  have hclock := h.clock
  simp only [tickMicros] at htick hclock ⊢
  exact ⟨⟨h.plan, hstarted, hdeadline, by omega, by simp only [tickMicros]; omega⟩,
    ⟨h.plan, by omega, hdeadline, by omega, by simp only [tickMicros]; omega⟩⟩

/-- An idle poll that finds no room in its window has the clock move on towards the end of it. -/
theorem held (h : w.Paces lengths start now idle) (hnonneg : ∀ l ∈ lengths, 0 ≤ l)
    (hindex : w.index < w.lengths.length) (hrunning : ¬ w.IsExpired now) :
    w.Paces lengths start (now + tickMicros) (idle + 1) := by
  have hwithin : now ≤ w.deadline := Int.not_lt.mp fun hpassed => hrunning ⟨hpassed, hindex⟩
  have hless := patience_tick (Int.le_trans hwithin (h.deadline_le hnonneg hindex))
  have hstarted := h.started
  have hidle := h.idle
  have hclock := h.clock
  simp only [tickMicros] at hless hclock ⊢
  exact ⟨h.plan, by omega, h.deadline, by omega, by simp only [tickMicros]; omega⟩

/-- With a gradient that leaves, the count of idle polls starts over. -/
theorem releasing (h : w.Paces lengths start now idle) (t : Task) (later : List Task) :
    (w.releasing t later).Paces lengths start now 0 :=
  ⟨h.plan, h.started, h.deadline, by
    have hidle := h.idle
    have hsame : patience start now (w.releasing t later) = patience start now w := rfl
    omega, h.clock⟩

/-- A timeline that ends on the clock has no deadline off it. -/
theorem isSigned_nextDeadline (h : w.Paces lengths start now idle)
    (hfits : FitsClock lengths start) (hindex : w.index < w.lengths.length) :
    ∀ d ∈ w.nextDeadline?, IsSigned d :=
  OnTime.isSigned_nextDeadline
    (fun hindex => ⟨start, by rwa [h.plan], h.deadline hindex⟩) hindex

end Paces

end Throttle

/-! ### Workers -/

namespace Rehearsal

namespace Worker

/-- A worker in the middle of an iteration that started at `start`: what it has taken and what still
waits make up the line, in its order, and the throttle keeps it waiting no longer than it may. -/
structure Paced (lengths : List Int) (start : Int) (line : List Task) (w : Worker)
    (throttle : Throttle) : Prop where
  timeline : w.session.OnTimeline throttle
  paces : throttle.Paces lengths start w.session.clock w.idle
  ordered : throttle.pending.ordered = true
  taken : w.emitted.toList ++ throttle.pending.tasks = line
  /-- A timeline that runs was started by one of the tasks. -/
  heads : throttle.index < throttle.lengths.length → ∃ t ∈ line, throttle.isHead t.name = true

namespace Paced

variable {lengths : List Int} {start : Int} {line : List Task} {w : Worker} {throttle : Throttle}

/-- What is still to come is what waits. -/
theorem length_eq (h : Paced lengths start line w throttle) :
    w.emitted.size + throttle.pending.tasks.length = line.length := by
  have hlength := congrArg List.length h.taken
  rwa [List.length_append, Array.length_toList] at hlength

/-- Nothing but the session is replaced by one of the same throttle and the same reading. -/
theorem within (h : Paced lengths start line w throttle) {s : Session}
    (hs : s.OnTimeline throttle) (hclock : s.clock = w.session.clock) (inFlight : List Task) :
    Paced lengths start line { w with session := s, inFlight } throttle :=
  ⟨hs, by rw [hclock]; exact h.paces, h.ordered, h.taken, h.heads⟩

/-- While tasks are to come, a dispatch takes the first of them, or lets none go and leaves a worker
that can afford to wait for a tick. -/
theorem dispatch (h : Paced lengths start line w throttle) (hnonneg : ∀ l ∈ lengths, 0 ≤ l)
    (hflags : ∀ t ∈ line, t.flag = none) (hmore : w.emitted.size < line.length)
    (hfits : ∀ n ∈ Moment.sum? ⟨w.session, .dispatch⟩, IsSigned n) :
    (∃ t s throttle', w.session.dispatch = .answered (some t) s ∧
      Paced lengths start line { w with session := s, emitted := w.emitted.push t, idle := 0 }
        throttle') ∨
    ∃ s throttle', w.session.dispatch = .answered none s ∧ s.clock = w.session.clock ∧
      Paced lengths start line { w with session := s } throttle' ∧
      Paced lengths start line
        { w with session := { s with clock := s.clock + tickMicros }, idle := w.idle + 1 }
        throttle' := by
  have hlength := h.length_eq
  obtain ⟨t, later, htasks⟩ : ∃ t later, throttle.pending.tasks = t :: later :=
    List.exists_cons_of_length_pos (by omega)
  have hflag : t.flag = none := hflags t (h.taken ▸ by simp [htasks])
  have hroll : throttle.IsExpired w.session.clock → throttle.roll.IsAnswered := by
    intro hexpired
    have hrolls : throttle.Rolls w.session.clock := ⟨by simp [htasks], hexpired⟩
    rw [h.timeline.sum?_dispatch, if_pos hrolls] at hfits
    exact Throttle.isAnswered_roll_iff.mpr hfits
  rcases h.timeline.dispatch_cases htasks hflag hroll with
    ⟨hexpired, s, hdispatch, hs, hclock⟩ | ⟨-, -, s, hdispatch, hs, hclock⟩ |
      ⟨hrunning, hroom, s, hdispatch, hs, hclock⟩
  · obtain ⟨hnow, htick⟩ := h.paces.nextWindow hexpired.2
    rw [← hclock] at hnow htick
    have hheads : throttle.index + 1 < throttle.lengths.length →
        ∃ t ∈ line, throttle.isHead t.name = true := fun _ => h.heads hexpired.2
    exact .inr ⟨s, _, hdispatch, hclock, ⟨hs, hnow, h.ordered, h.taken, hheads⟩,
      ⟨{ hs with }, htick, h.ordered, h.taken, hheads⟩⟩
  · have hnow := h.paces.releasing t later
    rw [← hclock] at hnow
    have htaken : (w.emitted.push t).toList ++ later = line := by
      simpa [htasks] using h.taken
    exact .inl ⟨t, s, _, hdispatch, hs, hnow, h.ordered, htaken, h.heads⟩
  · -- without room the timeline is not at its end
    have hindex : throttle.index < throttle.lengths.length := by
      simpa [Throttle.hasRoom, Throttle.isExhausted] using (Bool.or_eq_false_iff.mp hroom).1
    have htick := h.paces.held hnonneg hindex hrunning
    rw [← hclock] at htick
    exact .inr ⟨s, _, hdispatch, hclock, h.within hs hclock w.inFlight,
      ⟨{ hs with }, htick, h.ordered, h.taken, h.heads⟩⟩

/-- Tasks in flight can be reported finished until few enough are left. -/
theorem finishBeyond (h : Paced lengths start line w throttle) (depth : Nat) :
    ∃ s inFlight, finishBeyond depth w.session w.inFlight = .ok (s, inFlight) ∧
      inFlight.length ≤ depth ∧
      Paced lengths start line { w with session := s, inFlight } throttle := by
  exact exists_finishBeyond
    (I := fun s inFlight =>
      Paced lengths start line { w with session := s, inFlight } throttle)
    (by
      rintro s t later h
      obtain ⟨s', hfinish, hs', hclock⟩ := h.timeline.finish t.len
      exact ⟨s', hfinish, h.within hs' hclock later⟩) h depth

/-- As long as no sum leaves the clock, every turn goes on while there is a task to come. -/
theorem turn (h : Paced lengths start line w throttle) (hnonneg : ∀ l ∈ lengths, 0 ≤ l)
    (hpolls : pollsOf lengths ≤ idleLimit) (hflags : ∀ t ∈ line, t.flag = none)
    (hmore : w.emitted.size < line.length) {depth : Nat}
    (hclock : w.session.StaysOnClock ((w.turnDeeds depth).map Deed.action)) :
    ∃ w' throttle', w.turn depth = .ok w' ∧ Paced lengths start line w' throttle' := by
  obtain ⟨taken, deeds, hdeeds⟩ := w.exists_turnDeeds depth
  have hfits : ∀ n ∈ Moment.sum? ⟨w.session, .dispatch⟩, IsSigned n := by
    rw [hdeeds] at hclock
    exact (Session.staysOnClock_cons.mp hclock).1
  rcases h.dispatch hnonneg hflags hmore hfits with
    ⟨t, s, throttle', hdispatch, htook⟩ | ⟨s, throttle', hdispatch, -, hnow, htick⟩
  · obtain ⟨s', inFlight, hfinish, -, h'⟩ :=
      (htook.within htook.timeline rfl (w.inFlight ++ [t])).finishBeyond depth
    refine ⟨_, _, ?_, h'⟩
    simp only [Worker.turn, hdispatch, Outcome.answered, hfinish]
    rfl
  · cases hflight : w.inFlight with
    | cons t later =>
      obtain ⟨s', hfinish, hs', hsame⟩ := hnow.timeline.finish t.len
      refine ⟨_, _, ?_, hnow.within hs' hsame later⟩
      simp only [Worker.turn, hdispatch, Outcome.answered, hflight, hfinish]
      rfl
    | nil =>
      have hwait : IsSigned (s.clock + tickMicros) := by
        rw [turnDeeds_of_idle hdispatch hflight] at hclock
        obtain ⟨-, hlater⟩ := Session.staysOnClock_cons.mp hclock
        obtain ⟨hadvance, -⟩ := Session.staysOnClock_cons.mp hlater
        have hact : w.session.act (Deed.poll none).action = .answered none s := hdispatch
        rw [hact] at hadvance
        exact hadvance _ rfl
      have hidle : ¬ idleLimit < w.idle + 1 := by
        have hpatience : w.idle + 1 + _ ≤ pollsOf lengths := htick.paces.idle
        omega
      refine ⟨_, _, ?_, htick⟩
      simp only [Worker.turn, hdispatch, Outcome.answered, hflight, if_neg hidle, advanceMicros,
        wrapSigned_of_isSigned hwait]

/-- If all idle polls of the timeline end on the clock, no sum of a turn leaves it. -/
theorem staysOnClock_turnDeeds (h : Paced lengths start line w throttle)
    (hnonneg : ∀ l ∈ lengths, 0 ≤ l) (hflags : ∀ t ∈ line, t.flag = none)
    (hmore : w.emitted.size < line.length) (hstart : -0x8000000000000000 ≤ start)
    (hend : start + tickMicros * pollsOf lengths < 0x8000000000000000) (depth : Nat) :
    w.session.StaysOnClock ((w.turnDeeds depth).map Deed.action) := by
  have hfits : ∀ n ∈ Moment.sum? ⟨w.session, .dispatch⟩, IsSigned n := by
    intro n hn
    rw [h.timeline.sum?_dispatch] at hn
    split at hn
    · rename_i hrolls
      have hsum := sum_le_pollsOf hnonneg
      exact h.paces.isSigned_nextDeadline (fitsClock_of_nonneg hnonneg hstart (by omega))
        hrolls.2.2 n hn
    · cases hn
  rcases h.dispatch hnonneg hflags hmore hfits with
    ⟨t, s, throttle', hdispatch, htook⟩ | ⟨s, throttle', hdispatch, -, hnow, htick⟩
  · have hact : w.session.act (Deed.poll (some t)).action = .answered (some t) s := hdispatch
    rw [turnDeeds_of_taken hdispatch]
    refine Session.staysOnClock_cons.mpr ⟨hfits, ?_⟩
    rw [hact]
    exact htook.timeline.staysOnClock_reports _
  · have hact : w.session.act (Deed.poll none).action = .answered none s := hdispatch
    cases hflight : w.inFlight with
    | cons t later =>
      rw [turnDeeds_of_flight hdispatch hflight]
      refine Session.staysOnClock_cons.mpr ⟨hfits, ?_⟩
      rw [hact]
      exact hnow.timeline.staysOnClock_reports [t]
    | nil =>
      rw [turnDeeds_of_idle hdispatch hflight]
      have hlow : start ≤ s.clock + tickMicros := htick.paces.started
      have hhigh : s.clock + tickMicros + tickMicros * _ ≤ start + tickMicros * pollsOf lengths :=
        htick.paces.clock
      have hwait : IsSigned (s.clock + tickMicros) := by
        simp only [tickMicros] at hlow hhigh hend ⊢
        exact ⟨by omega, by omega⟩
      refine Session.staysOnClock_cons.mpr ⟨hfits, Session.staysOnClock_cons.mpr ⟨?_, by simp⟩⟩
      rw [hact]
      rintro n ⟨⟩
      exact hwait

end Paced

variable {lengths : List Int} {start : Int} {line : List Task} {w : Worker} {throttle : Throttle}
  {depth : Nat}

/-- As long as no sum leaves the clock, a worker takes turns until it has taken the whole line. -/
theorem exists_work_of_paced (h : Paced lengths start line w throttle)
    (hnonneg : ∀ l ∈ lengths, 0 ≤ l) (hpolls : pollsOf lengths ≤ idleLimit)
    (hflags : ∀ t ∈ line, t.flag = none)
    (hclock : w.session.StaysOnClock ((w.workDeeds line.length depth).map Deed.action)) :
    ∃ w' throttle', w.work line.length depth = .ok w' ∧
      Paced lengths start line w' throttle' ∧ line.length ≤ w'.emitted.size := by
  fun_induction workDeeds line.length depth w generalizing throttle with
  | case1 w hmore halt hturn =>
    obtain ⟨w', throttle', hok, -⟩ := h.turn hnonneg hpolls hflags hmore hclock
    cases hturn.symm.trans hok
  | case2 w hmore w₁ hturn _ ih =>
    rw [List.map_append, Session.staysOnClock_append, (turn_does hturn).performs.after] at hclock
    obtain ⟨w', throttle', hok, h₁⟩ := h.turn hnonneg hpolls hflags hmore hclock.1
    cases hturn.symm.trans hok
    rw [work_of_turn hmore hturn]
    exact ih h₁ hclock.2
  | case3 w hall => exact ⟨w, throttle, work_of_le hall, h, Nat.le_of_not_lt hall⟩

/-- If all idle polls of the timeline end on the clock, no sum of the poll loop leaves it. -/
theorem staysOnClock_workDeeds (h : Paced lengths start line w throttle)
    (hnonneg : ∀ l ∈ lengths, 0 ≤ l) (hpolls : pollsOf lengths ≤ idleLimit)
    (hflags : ∀ t ∈ line, t.flag = none) (hstart : -0x8000000000000000 ≤ start)
    (hend : start + tickMicros * pollsOf lengths < 0x8000000000000000) :
    w.session.StaysOnClock ((w.workDeeds line.length depth).map Deed.action) := by
  fun_induction workDeeds line.length depth w generalizing throttle with
  | case1 w hmore halt hturn =>
    exact h.staysOnClock_turnDeeds hnonneg hflags hmore hstart hend depth
  | case2 w hmore w₁ hturn _ ih =>
    have hnow := h.staysOnClock_turnDeeds hnonneg hflags hmore hstart hend depth
    obtain ⟨w', throttle', hok, h₁⟩ := h.turn hnonneg hpolls hflags hmore hnow
    cases hturn.symm.trans hok
    rw [List.map_append, Session.staysOnClock_append, (turn_does hturn).performs.after]
    exact ⟨hnow, ih h₁⟩
  | case3 w hall => exact Session.staysOnClock_nil _

end Worker

/-! ### Iterations -/

/-- A session between two iterations over some tasks. Nothing waits, and a timeline that still runs
starts over with the next iteration. -/
structure RestsOnTimeline (lengths : List Int) (tasks : List Task) (s : Session)
    (throttle : Throttle) : Prop where
  timeline : s.OnTimeline throttle
  plan : throttle.lengths = lengths
  ordered : throttle.pending.ordered = true
  empty : throttle.pending.tasks = []
  heads : throttle.index < throttle.lengths.length → ∃ t ∈ tasks, throttle.isHead t.name = true

namespace RestsOnTimeline

variable {lengths : List Int} {tasks shuffled : List Task} {s : Session} {throttle : Throttle}

/-- A fresh queue of a window plan rests. -/
theorem start {config : QueueConfig} {role : Role} {plan : WindowPlan} {q : Queue}
    (hq : Queue.create .push config role = .ok q) (hstrategy : config.strategy = .timeWindow)
    (hwindow : config.window = some plan) (tasks : List Task) :
    RestsOnTimeline plan.lengths tasks { queue := q } (.start plan config.beginName) where
  timeline := .start hq hstrategy hwindow
  plan := rfl
  ordered := rfl
  empty := rfl
  heads := fun hindex => absurd hindex (Nat.lt_irrefl _)

/-- Once all tasks are submitted, they wait in their order on a timeline that starts now. -/
theorem exists_submitAll (h : RestsOnTimeline lengths tasks s throttle)
    (hperm : shuffled ~ tasks)
    (hgradients : ∀ t ∈ tasks, t.name.isEmpty = false ∧ t.isGradient = true)
    (hclock : s.StaysOnClock ((shuffled.map Deed.submit).map Deed.action)) :
    ∃ s' line throttle', submitAll s shuffled = .ok s' ∧ line ~ tasks ∧
      (line.Pairwise fun t u => ¬ u.Before t) ∧
      Worker.Paced lengths s.clock line { session := s' } throttle' := by
  obtain ⟨s', hsubmit, hs', hsame⟩ :=
    h.timeline.submitAll (fun t ht => hgradients t (hperm.mem_iff.mp ht)) hclock
  obtain ⟨hordered, hwaiting, hsorted⟩ := Throttle.pending_joinedBy h.ordered
    (by rw [h.empty]; exact .nil) s.clock shuffled
  rw [h.empty, List.nil_append] at hwaiting
  have hheads : throttle.index < throttle.lengths.length →
      ∃ t ∈ shuffled, throttle.isHead t.name = true := by
    intro hindex
    obtain ⟨t, ht, hhead⟩ := h.heads hindex
    exact ⟨t, hperm.mem_iff.mpr ht, hhead⟩
  have hlengths : (throttle.joinedBy s.clock shuffled).lengths = lengths :=
    (congrArg Prod.fst (throttle.plan_joinedBy s.clock shuffled)).trans h.plan
  have hpaces := Throttle.Paces.begun hlengths fun hindex =>
    (Throttle.begun_joinedBy hheads hindex).2
  refine ⟨s', _, _, hsubmit, hwaiting.trans hperm, hsorted, hs', ?_, hordered, rfl, ?_⟩
  · rw [hsame]
    exact hpaces
  · intro hindex
    obtain ⟨⟨t, ht, hhead⟩, -⟩ := Throttle.begun_joinedBy hheads hindex
    exact ⟨t, hwaiting.mem_iff.mpr ht, hhead⟩

variable {depth : Nat}
  (htasks : ∀ t ∈ tasks, (t.name.isEmpty = false ∧ t.isGradient = true) ∧ t.flag = none)
  (hnonneg : ∀ l ∈ lengths, 0 ≤ l) (hpolls : pollsOf lengths ≤ idleLimit)

include htasks hnonneg hpolls

/-- As long as no sum leaves the clock, an iteration takes its tasks by rank, and a timeline later
at most it rests again. -/
theorem exists_runIteration (h : RestsOnTimeline lengths tasks s throttle)
    (hperm : shuffled ~ tasks)
    (hclock : s.StaysOnClock ((iterationDeeds depth shuffled s).map Deed.action)) :
    ∃ s' taken throttle', runIteration depth shuffled s = .ok (s', taken) ∧ taken ~ tasks ∧
      (taken.Pairwise fun t u => ¬ u.Before t) ∧ RestsOnTimeline lengths tasks s' throttle' ∧
      s.clock ≤ s'.clock ∧ s'.clock ≤ s.clock + tickMicros * pollsOf lengths := by
  rw [iterationDeeds, List.map_append, Session.staysOnClock_append] at hclock
  obtain ⟨hsubmissions, hlater⟩ := hclock
  obtain ⟨s₁, line, throttle₁, hsubmit, hline, hsorted, hpaced⟩ :=
    h.exists_submitAll hperm (fun t ht => (htasks t ht).1) hsubmissions
  have hlength : shuffled.length = line.length := hperm.length_eq.trans hline.length_eq.symm
  rw [(performs_of_submitAll hsubmit).after, hsubmit, hlength, List.map_append,
    Session.staysOnClock_append] at hlater
  obtain ⟨w, throttle₂, hwork, hdone, hall⟩ := Worker.exists_work_of_paced hpaced hnonneg hpolls
    (fun t ht => (htasks t (hline.mem_iff.mp ht)).2) hlater.1
  obtain ⟨s', inFlight, hfinish, -, h'⟩ := hdone.finishBeyond 0
  have hcount := hdone.length_eq
  have hempty : throttle₂.pending.tasks = [] := List.eq_nil_of_length_eq_zero (by omega)
  have htaken : w.emitted.toList = line := by simpa [hempty] using hdone.taken
  refine ⟨s', line, throttle₂, ?_, hline, hsorted, ⟨h'.timeline, h'.paces.plan, h'.ordered, hempty,
    fun hindex => ?_⟩, h'.paces.started, ?_⟩
  · rw [runIteration, hsubmit, hlength]
    simp only [bind, Except.bind, hwork, hfinish, htaken]
    rfl
  · obtain ⟨t, ht, hhead⟩ := h'.heads hindex
    exact ⟨t, hline.mem_iff.mp ht, hhead⟩
  · have hahead : s'.clock + tickMicros * _ ≤ s.clock + tickMicros * pollsOf lengths :=
      h'.paces.clock
    simp only [tickMicros] at hahead ⊢
    omega

/-- If all idle polls of a timeline that starts now end on the clock, no sum of an iteration leaves
it. -/
theorem staysOnClock_iterationDeeds (h : RestsOnTimeline lengths tasks s throttle)
    (hperm : shuffled ~ tasks) (hstart : -0x8000000000000000 ≤ s.clock)
    (hend : s.clock + tickMicros * pollsOf lengths < 0x8000000000000000) :
    s.StaysOnClock ((iterationDeeds depth shuffled s).map Deed.action) := by
  have hfits : FitsClock lengths s.clock := by
    have hsum := sum_le_pollsOf hnonneg
    exact fitsClock_of_nonneg hnonneg hstart (by omega)
  have hsubmissions := h.timeline.staysOnClock_submissions
    (fun t ht => (htasks t (hperm.mem_iff.mp ht)).1)
    (by rw [h.plan, headD_eq_sum_take]; exact hfits 0)
  obtain ⟨s₁, line, throttle₁, hsubmit, hline, -, hpaced⟩ :=
    h.exists_submitAll hperm (fun t ht => (htasks t ht).1) hsubmissions
  have hlength : shuffled.length = line.length := hperm.length_eq.trans hline.length_eq.symm
  have hflags : ∀ t ∈ line, t.flag = none := fun t ht => (htasks t (hline.mem_iff.mp ht)).2
  have hwork : s₁.StaysOnClock
      ((Worker.workDeeds line.length depth { session := s₁ }).map Deed.action) :=
    Worker.staysOnClock_workDeeds hpaced hnonneg hpolls hflags hstart hend
  obtain ⟨w, throttle₂, hdone, hpaced', -⟩ :=
    Worker.exists_work_of_paced hpaced hnonneg hpolls hflags hwork
  have hdoes : Performs s₁ (Worker.workDeeds line.length depth { session := s₁ }) w.session :=
    (Worker.work_does hdone (Nat.zero_le _)).1.performs
  rw [iterationDeeds, List.map_append, Session.staysOnClock_append,
    (performs_of_submitAll hsubmit).after, hsubmit, hlength, List.map_append,
    Session.staysOnClock_append, hdoes.after, hdone]
  exact ⟨hsubmissions, hwork, hpaced'.timeline.staysOnClock_reports w.inFlight⟩

/-- As long as no sum leaves the clock, each of the next iterations takes its tasks by rank. -/
theorem exists_runIterations (h : RestsOnTimeline lengths tasks s throttle)
    {remaining : Nat} {g : Random.Generator}
    (hclock : s.StaysOnClock ((recordIterations depth tasks remaining g s).flatten.map Deed.action))
    (iteration : Nat) :
    ∃ (taken : Nat → List Task) (s' : Session),
      runIterations depth tasks remaining iteration g s =
        .ok ((List.range' iteration remaining).flatMap fun k => emissionsOf k (taken k), s') ∧
      ∀ k, taken k ~ tasks ∧ (taken k).Pairwise fun t u => ¬ u.Before t := by
  refine exists_runIterations_of_invariant
    (I := fun remaining g s => (∃ throttle, RestsOnTimeline lengths tasks s throttle) ∧
      s.StaysOnClock ((recordIterations depth tasks remaining g s).flatten.map Deed.action))
    (P := fun taken => taken ~ tasks ∧ taken.Pairwise fun t u => ¬ u.Before t) ?_
    ⟨_, Task.byRank_perm tasks, Task.pairwise_byRank tasks⟩ ⟨⟨throttle, h⟩, hclock⟩ iteration
  rintro remaining g s ⟨⟨_, h⟩, hclock⟩
  rw [recordIterations, List.flatten_cons, List.map_append, Session.staysOnClock_append] at hclock
  obtain ⟨s', taken, _, hfirst, hperm, hsorted, h', -, -⟩ :=
    h.exists_runIteration htasks hnonneg hpolls (Random.shuffle_perm tasks g) hclock.1
  rw [(performs_of_runIteration hfirst).1.after, hfirst] at hclock
  exact ⟨s', taken, hfirst, ⟨hperm, hsorted⟩, ⟨_, h'⟩, hclock.2⟩

/-- If the clock has room for the timelines of the next iterations, one after the other, no sum of
them leaves it. -/
theorem staysOnClock_recordIterations (h : RestsOnTimeline lengths tasks s throttle)
    {remaining : Nat} (hstart : -0x8000000000000000 ≤ s.clock)
    (hend : s.clock + remaining * (tickMicros * pollsOf lengths) < 0x8000000000000000)
    (g : Random.Generator) :
    s.StaysOnClock ((recordIterations depth tasks remaining g s).flatten.map Deed.action) := by
  induction remaining generalizing s throttle g with
  | zero => exact s.staysOnClock_nil
  | succ remaining ih =>
    have htimeline : 0 ≤ tickMicros * (pollsOf lengths : Int) := by
      simp only [tickMicros]
      omega
    have hlater : 0 ≤ (remaining : Int) * (tickMicros * pollsOf lengths) :=
      Int.mul_nonneg (Int.natCast_nonneg remaining) htimeline
    rw [Nat.cast_succ, add_one_mul] at hend
    have hperm := Random.shuffle_perm tasks g
    have hnow : s.StaysOnClock
        ((iterationDeeds depth (Random.shuffle tasks g).1 s).map Deed.action) :=
      h.staysOnClock_iterationDeeds htasks hnonneg hpolls hperm hstart (by omega)
    obtain ⟨s', taken, _, hfirst, -, -, h', hforth, hwithin⟩ :=
      h.exists_runIteration htasks hnonneg hpolls hperm hnow
    rw [recordIterations, List.flatten_cons, List.map_append, Session.staysOnClock_append,
      (performs_of_runIteration hfirst).1.after, hfirst]
    exact ⟨hnow, ih h' (by omega) (by omega) _⟩

end RestsOnTimeline

/-! ### Rehearsals -/

/-- No sum that a rehearsal forms leaves the signed range: no reading of the clock, and no deadline
of a window. -/
def StaysOnClock (config : Config) (options : Options) : Prop :=
  ∀ q, Queue.create options.stage config.queue config.role = .ok q →
    Session.StaysOnClock { queue := q } ((record config options).flatten.map Deed.action)

/-- Every partition of a synthetic tensor is a named gradient that waits for no flag. -/
theorem unflagged_gradient_of_mem_synthesize {priorities : List Int} {partitions len : Nat}
    {beginName : Option String} {t : Task}
    (h : t ∈ synthesize priorities partitions len beginName) :
    (t.name.isEmpty = false ∧ t.isGradient = true) ∧ t.flag = none :=
  ⟨gradient_of_mem_synthesize h, (uniform_of_mem_synthesize h).1⟩

section

variable {config : Config} {options : Options} {plan : WindowPlan} {priorities : List Int}

/-- The deeds of a rehearsal are those of its iterations. -/
theorem record_eq {q : Queue} (hq : Queue.create options.stage config.queue config.role = .ok q)
    (hpriorities : tensorPriorities config.queue options.tensors = .ok priorities) :
    record config options =
      recordIterations (max 1 options.depth)
        (synthesize priorities options.partitions options.len config.queue.beginName)
        options.iterations (.ofSeed options.seed) { queue := q } := by
  simp only [record, hq, hpriorities]

/-- If the clock has room for the timelines of all iterations, one after the other, no sum of a
rehearsal leaves it. -/
theorem staysOnClock_of_iterations (hstrategy : config.queue.strategy = .timeWindow)
    (hwindow : config.queue.window = some plan) (hstage : options.stage = .push)
    (hnonneg : ∀ l ∈ plan.lengths, 0 ≤ l) (hpolls : pollsOf plan.lengths ≤ idleLimit)
    (hpriorities : tensorPriorities config.queue options.tensors = .ok priorities)
    (hend : (options.iterations : Int) * (tickMicros * pollsOf plan.lengths) <
      0x8000000000000000) : StaysOnClock config options := by
  intro q hq
  rw [record_eq hq hpriorities]
  rw [hstage] at hq
  have hclock : Session.clock { queue := q } = 0 := rfl
  refine (RestsOnTimeline.start hq hstrategy hwindow _).staysOnClock_recordIterations
    (fun _ ht => unflagged_gradient_of_mem_synthesize ht) hnonneg hpolls ?_ ?_ _
  · rw [hclock]
    decide
  · rwa [hclock, Int.zero_add]

end

/-- **Throttled rehearsals.** At a push stage that meters windows of no negative length, a rehearsal
reports if a worker tolerates an idle poll for each window and for each tick until the end of the
last one, whatever the lengths of the partitions, the seed and the number of tasks in flight, as
long as no sum leaves the clock. Each iteration emits its tasks by descending priority and ascending
key. -/
theorem run_throttled_by_rank (config : Config) (options : Options) {plan : WindowPlan}
    {priorities : List Int} (hvalid : config.queue.validate = .ok ())
    (hstrategy : config.queue.strategy = .timeWindow) (hwindow : config.queue.window = some plan)
    (hnonneg : ∀ l ∈ plan.lengths, 0 ≤ l)
    (hpolls : plan.lengths.sum / tickMicros + plan.lengths.length + 1 ≤ idleLimit)
    (hstage : options.stage = .push) (hpartitions : options.partitions ≤ partitionBound)
    (hpriorities : tensorPriorities config.queue options.tensors = .ok priorities)
    (hclock : StaysOnClock config options) :
    let tasks := synthesize priorities options.partitions options.len config.queue.beginName
    ∃ report, run config options = .ok report ∧
      (∀ iteration < options.iterations, ∃ taken : List Task, taken ~ tasks ∧
        report.emissions.filter (·.iteration == iteration) = emissionsOf iteration taken ∧
        taken.map Task.rank = (Task.byRank tasks).map Task.rank ∧
        (priorities.length ≤ tensorBound → taken = Task.byRank tasks)) ∧
      ∀ e ∈ report.emissions, e.iteration < options.iterations := by
  intro tasks
  obtain ⟨q, hq⟩ : ∃ q, Queue.create options.stage config.queue config.role = .ok q :=
    Queue.exists_create hvalid options.stage config.role
  have hrun := run_eq_map hq hpriorities
    (checkedTasks_of_le hpartitions priorities options.len config.queue.beginName)
  have hon := hclock q hq
  rw [record_eq hq hpriorities] at hon
  rw [hstage] at hq
  have htolerated : pollsOf plan.lengths ≤ idleLimit := by
    have hsum := List.sum_nonneg hnonneg
    simp only [pollsOf, tickMicros] at hpolls ⊢
    omega
  obtain ⟨taken, s, hruns, htaken⟩ := (RestsOnTimeline.start hq hstrategy hwindow tasks)
    |>.exists_runIterations (fun _ ht => unflagged_gradient_of_mem_synthesize ht) hnonneg
      htolerated hon 0
  rw [hruns, ← List.range_eq_range'] at hrun
  exact ⟨_, hrun, emissions_by_rank hpartitions htaken⟩

/-- Three tensors, the first of them of a middle priority, on a timeline that a worker can wait
for. -/
def pacedConfig : Config where
  queue :=
    { strategy := .timeWindow
      beginName := some "fc"
      schedule := some ⟨[-2, -1], -1, 3⟩
      window := some halvesPlan }

/-- Two partitions for each tensor. None of them has room in a window. -/
def pacedOptions : Options := { iterations := 2, partitions := 2, depth := 3, seed := 7 }

theorem run_throttled_by_rank_pacedRun :
    ∃ report, run pacedConfig pacedOptions = .ok report ∧
      (report.emissions.filter (·.iteration == 1)).map (fun e => (e.name, e.key, e.priority)) =
        [("tensor1_gradient", 0x10000, -1), ("tensor1_gradient", 0x10001, -1),
          ("fc_gradient", 0, -2), ("fc_gradient", 1, -2),
          ("tensor2_gradient", 0x20000, -3), ("tensor2_gradient", 0x20001, -3)] := by
  have hnonneg : ∀ l ∈ halvesPlan.lengths, 0 ≤ l := by rw [lengths_halvesPlan]; decide
  have hpriorities : tensorPriorities pacedConfig.queue pacedOptions.tensors =
      .ok [-2, -1, -3] := rfl
  have hclock : StaysOnClock pacedConfig pacedOptions :=
    staysOnClock_of_iterations rfl rfl rfl hnonneg (by rw [lengths_halvesPlan]; decide)
      hpriorities (by rw [lengths_halvesPlan]; decide)
  obtain ⟨report, hrun, hiterations, -⟩ :=
    run_throttled_by_rank pacedConfig pacedOptions rfl rfl rfl hnonneg
      (by rw [lengths_halvesPlan]; decide) rfl (by decide) hpriorities hclock
  obtain ⟨taken, -, hfilter, -, htaken⟩ := hiterations 1 (by decide)
  refine ⟨report, hrun, ?_⟩
  have hsorted : Task.byRank (synthesize [-2, -1, -3] 2 1024 (some "fc")) =
      partitionsOf 2 1024 (some "fc") 1 (-1) ++ partitionsOf 2 1024 (some "fc") 0 (-2) ++
        partitionsOf 2 1024 (some "fc") 2 (-3) :=
    Task.eq_of_nodup_keys ((Task.byRank_perm _).trans (by decide +kernel))
      (Task.pairwise_byRank _) (by decide +kernel) (by decide +kernel)
  rw [hfilter, map_emissionsOf, htaken (by decide)]
  show (Task.byRank (synthesize [-2, -1, -3] 2 1024 (some "fc"))).map _ = _
  rw [hsorted]
  decide +kernel

end Rehearsal

end TensorDispatch
