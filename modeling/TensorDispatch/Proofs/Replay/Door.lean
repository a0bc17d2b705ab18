import TensorDispatch.Proofs.Replay.Trace

/-!
# The boundary door

Behind the boundary of a pass, one completion lets one more tensor through.

* `PastBoundary`, `AwaitsCompletion` — a trace has come to the boundary of its current pass, and
  it has staged a group there that no completion has followed yet;
* `Replay.Guarded` — the invariant: as long as a completion is awaited, the door is closed, and
  nothing has ever been staged in such a state;
* `boundary_door_safe` — along every run, a completion comes between any group that is staged at
  the boundary or behind it and the next group, across rollovers too.

A rollover forgets that the boundary has been seen. It is harmless because it waits for an open
door, and an open door means that no completion is awaited.
-/

namespace TensorDispatch

open Session (twoTensorReplay)

/-! ### Boundaries in a trace -/

/-- The boundary tensor is staged in the current pass. -/
def PastBoundary (boundary : Int) (es : List ReplayEvent) : Prop :=
  ∃ group ∈ (Passes.ofTrace es).current, ∃ t ∈ group, t.priority = boundary

/-- A group that was staged at the boundary of its pass, or behind it, is not followed by a
completion yet. -/
def AwaitsCompletion (boundary : Int) (es : List ReplayEvent) : Prop :=
  ∃ earlier group later, es = earlier ++ .staged group :: later ∧
    PastBoundary boundary (earlier ++ [.staged group]) ∧ ReplayEvent.finished ∉ later

section

variable {boundary : Int} {es : List ReplayEvent}

theorem not_pastBoundary_rolledOver : ¬ PastBoundary boundary (es ++ [.rolledOver]) := by
  rintro ⟨group, hgroup, -⟩
  simp [Passes.ofTrace_append, Passes.follow, Passes.roll] at hgroup

theorem pastBoundary_staged_iff {group : List Task} :
    PastBoundary boundary (es ++ [.staged group]) ↔
      PastBoundary boundary es ∨ ∃ t ∈ group, t.priority = boundary := by
  simp [PastBoundary, Passes.ofTrace_append, Passes.follow, Passes.stage, or_and_right, exists_or]

theorem pastBoundary_finished_iff :
    PastBoundary boundary (es ++ [.finished]) ↔ PastBoundary boundary es := by
  simp [PastBoundary, Passes.ofTrace_append, Passes.follow]

/-- What is awaited after one more event was awaited before, or the event is a group at the
boundary or behind it. -/
theorem AwaitsCompletion.of_concat {e : ReplayEvent}
    (h : AwaitsCompletion boundary (es ++ [e])) :
    e ≠ .finished ∧ (AwaitsCompletion boundary es ∨
      (∃ group, e = .staged group) ∧ PastBoundary boundary (es ++ [e])) := by
  obtain ⟨earlier, group, later, heq, hpast, hlater⟩ := h
  rcases List.eq_nil_or_concat later with rfl | ⟨later, last, rfl⟩
  · obtain ⟨rfl, he⟩ := List.append_inj' heq rfl
    cases he
    exact ⟨by simp, .inr ⟨⟨group, rfl⟩, hpast⟩⟩
  · rw [List.concat_eq_append] at heq hlater
    rw [← List.cons_append, ← List.append_assoc] at heq
    obtain ⟨rfl, he⟩ := List.append_inj' heq rfl
    cases he
    simp only [List.mem_append, List.mem_singleton, not_or] at hlater
    exact ⟨Ne.symm hlater.2, .inl ⟨earlier, group, later, rfl, hpast, hlater.1⟩⟩

end

/-! ### The invariant -/

namespace Replay

/-- A replay behind a boundary door after a trace. -/
structure Guarded (r : Replay) (es : List ReplayEvent) : Prop where
  scheduled : r.schedule.boundary ∈ r.schedule.tokens
  door : r.door = .boundary
  closed : r.permits = 0 → r.boundarySeen = true
  seen : PastBoundary r.schedule.boundary es → r.boundarySeen = true
  shut : AwaitsCompletion r.schedule.boundary es → r.permits = 0
  /-- No group has been staged while a completion was awaited. -/
  safe : ∀ earlier group, earlier ++ [.staged group] <+: es →
    ¬ AwaitsCompletion r.schedule.boundary earlier

theorem Guarded.start {schedule : Schedule} (h : schedule.boundary ∈ schedule.tokens) :
    (Replay.start schedule .boundary).Guarded [] where
  scheduled := h
  door := rfl
  closed := by simp [Replay.start]
  seen := by simp [PastBoundary]
  shut := by simp [AwaitsCompletion]
  safe := by simp

namespace Guarded

variable {r r' : Replay} {es : List ReplayEvent}

/-- The invariant is about the plan and the door alone. -/
theorem of_eq (h : r.Guarded es) (hplan : r'.plan = r.plan) (hpermits : r'.permits = r.permits)
    (hseen : r'.boundarySeen = r.boundarySeen) : r'.Guarded es := by
  have hschedule : r'.schedule = r.schedule := congrArg Prod.fst hplan
  have hdoor : r'.door = r.door := congrArg Prod.snd hplan
  obtain ⟨scheduled, door, closed, seen, shut, safe⟩ := h
  rw [← hschedule] at scheduled seen shut safe
  rw [← hdoor] at door
  rw [← hpermits] at closed shut
  rw [← hseen] at closed seen
  exact ⟨scheduled, door, closed, seen, shut, safe⟩

/-- One more event that stages nothing is as safe as what came before. -/
theorem safe_concat (h : r.Guarded es) {e : ReplayEvent}
    (he : ∀ group, e = .staged group → ¬ AwaitsCompletion r.schedule.boundary es) :
    ∀ earlier group, earlier ++ [.staged group] <+: es ++ [e] →
      ¬ AwaitsCompletion r.schedule.boundary earlier := by
  intro earlier group hprefix
  rcases List.prefix_concat_iff.mp hprefix with heq | hprefix
  · obtain ⟨rfl, hlast⟩ := List.append_inj' heq rfl
    cases hlast
    exact he group rfl
  · exact h.safe earlier group hprefix

/-- A rollover waits for the door, so nothing is awaited then. -/
theorem rolled (h : r.Guarded es) :
    r.rolled.Guarded (es ++ if r.RollsOver then [.rolledOver] else []) := by
  by_cases hroll : r.RollsOver
  -- the boundary is forgotten, but the door is open and nothing is awaited
  · have hopen : 0 < r.permits := hroll.2.2.2
    rw [Replay.rolled, if_pos hroll, if_pos hroll]
    refine ⟨h.scheduled, h.door, ?_, ?_, ?_, h.safe_concat (by simp)⟩
    · intro hclosed
      exact absurd hclosed (Nat.pos_iff_ne_zero.mp hopen)
    · intro hpast
      exact absurd hpast not_pastBoundary_rolledOver
    · intro hawaits
      rcases hawaits.of_concat.2 with hawaits | ⟨⟨group, hgroup⟩, -⟩
      · exact h.shut hawaits
      · cases hgroup
  · simpa [Replay.rolled, hroll] using h

/-- A tensor at the boundary closes the door behind itself, and so does any tensor behind it. -/
theorem refill {group : Option (List Task)} (hrefill : Refill r group r') (h : r.Guarded es) :
    r'.Guarded (es ++ group.toList.map ReplayEvent.staged) := by
  cases hrefill with
  | kept => simpa using h
  | @held priority scheduled _ _ hseen hclosed =>
    rw [Option.toList_none, List.map_nil, List.append_nil]
    exact ⟨h.scheduled, h.door, fun _ => hseen, fun _ => hseen, h.shut, h.safe⟩
  | @moved priority scheduled _ hnext hopen =>
    rw [Option.toList_some, List.map_singleton]
    set seen := (r.reach priority scheduled).boundarySeen with hseen
    have hpermits : ((r.reach priority scheduled).stage priority scheduled).permits =
        if seen then 0 else r.permits := by
      simp [stage, permitsAfterTensor, reach, h.door, hseen]
    have hreach := boundarySeen_reach_iff h.scheduled hnext
    rw [← hseen] at hreach
    have hkeeps : r.boundarySeen = true → seen = true := fun hbefore => hreach.mpr (.inl hbefore)
    have hreaches : PastBoundary r.schedule.boundary
        (es ++ [.staged (r.pending.takeGroup priority).1]) → seen = true := by
      intro hpast
      rcases pastBoundary_staged_iff.mp hpast with hpast | ⟨t, ht, hboundary⟩
      · exact hkeeps (h.seen hpast)
      · exact hreach.mpr (.inr ((Pending.mem_takeGroup ht).2.symm.trans hboundary))
    -- a closed door has been seen, so with a completion awaited the tensor would be held back
    have hfree : ¬ AwaitsCompletion r.schedule.boundary es := by
      intro hawaits
      have hclosed := h.shut hawaits
      have hpos := hopen (hkeeps (h.closed hclosed))
      omega
    refine ⟨h.scheduled, h.door, ?_, hreaches, ?_, h.safe_concat fun _ _ => hfree⟩
    · rw [hpermits]
      intro hclosed
      by_cases hs : seen = true
      · exact hs
      · exact hkeeps (h.closed (by simpa [hs] using hclosed))
    · intro hawaits
      rcases hawaits.of_concat.2 with hawaits | ⟨-, hpast⟩
      · exact absurd hawaits hfree
      · rw [hpermits, if_pos (hreaches hpast)]

/-- A completion behind the boundary opens the door, and none is awaited from then on. -/
theorem afterCompletion (h : r.Guarded es) : r.completed.Guarded (es ++ [.finished]) := by
  -- a completion ends every wait, whether or not it grants a permit
  have hnone : ¬ AwaitsCompletion r.schedule.boundary (es ++ [.finished]) :=
    fun hawaits => hawaits.of_concat.1 rfl
  have hpast : PastBoundary r.schedule.boundary (es ++ [.finished]) → r.boundarySeen = true :=
    fun hpast => h.seen (pastBoundary_finished_iff.mp hpast)
  have hsafe := h.safe_concat (e := .finished) (by simp)
  cases hseen : r.boundarySeen with
  | true =>
    have hcompleted : r.completed = { r with permits := 1 } := by
      simp [Replay.completed, hseen, grantPermit, h.door]
    rw [hcompleted]
    exact ⟨h.scheduled, h.door, by simp, hpast, fun hawaits => absurd hawaits hnone, hsafe⟩
  | false =>
    have hcompleted : r.completed = r := by simp [Replay.completed, hseen]
    rw [hcompleted]
    exact ⟨h.scheduled, h.door, h.closed, hpast, fun hawaits => absurd hawaits hnone, hsafe⟩

/-- One action keeps the invariant. -/
theorem onReplay {m : Moment} {events : List ReplayEvent} (hm : m.OnReplay r events r')
    (h : r.Guarded es) : r'.Guarded (es ++ events) := by
  cases hm with
  | submitted =>
    rw [List.append_nil]
    exact h.of_eq rfl rfl rfl
  | polled =>
    have hrefilled := h.rolled.refill r.rolled.refill
    rw [List.append_assoc] at hrefilled
    obtain ⟨later, heq⟩ :=
      r.rolled.refilled.exists_releaseStaged_eq (m.before.queue.admits m.before.readiness)
    rw [Moment.poll, heq]
    exact hrefilled.of_eq rfl rfl rfl
  | completed => exact h.afterCompletion
  | other => simpa using h

end Guarded

end Replay

/-! ### Runs -/

/-- A replay rolls over in a poll that finds its pass complete. -/
theorem Moment.rollsOver_of_mem_events {m : Moment} {r : Replay}
    (hpolicy : m.before.queue.policy = .replay r) (h : .rolledOver ∈ m.events) : r.RollsOver := by
  unfold events at h
  split at h
  · rename_i r' hpolicy'
    cases hpolicy.symm.trans hpolicy'
    exact Replay.rolledOver_mem_pollEvents.mp h
  · simp at h
  · simp at h

namespace Session

/-- The replay of a session keeps to the invariant along a history. -/
def Guards (schedule : Schedule) (h : List Moment) (s : Session) : Prop :=
  ∃ r, s.queue.Replays r ∧ r.schedule = schedule ∧ r.Guarded (h.flatMap Moment.events)

/-- One more moment keeps the invariant. -/
theorem Guards.act {schedule : Schedule} {h : List Moment} {m : Moment}
    (hbefore : Guards schedule h m.before) : Guards schedule (h ++ [m]) m.after := by
  obtain ⟨r, hreplays, hschedule, hguarded⟩ := hbefore
  obtain ⟨r', hreplays', hm, -⟩ := Moment.onReplay hreplays
  refine ⟨r', hreplays', (congrArg Prod.fst hm.plan).trans hschedule, ?_⟩
  rw [List.flatMap_append, List.flatMap_singleton]
  exact hguarded.onReplay hm

theorem guards_after {s : Session} {schedule : Schedule}
    (hreplays : s.queue.Replays (.start schedule .boundary))
    (hscheduled : schedule.boundary ∈ schedule.tokens) (actions : List Action) :
    Guards schedule (s.history actions) (s.after actions) :=
  history_induction ⟨_, hreplays, rfl, .start hscheduled⟩ (fun _ _ => .act) actions

end Session

/-- **Safety of the boundary door.** Along every run, once a group has been staged at the boundary
of its pass or behind it, the next group is staged only after a completion has been reported. A
closed door means that the boundary has been seen, and no pass rolls over behind it. -/
theorem boundary_door_safe {config : QueueConfig} {role : Role} {s : Session}
    (hs : Queue.create .push config role = .ok s.queue)
    (hstrategy : config.strategy = .tokenReplay) (hdoor : config.door = .boundary)
    (actions : List Action) :
    ∃ schedule, config.schedule = some schedule ∧
      (∀ earlier group between next later,
        s.trace actions =
          earlier ++ .staged group :: (between ++ .staged next :: later) →
        PastBoundary schedule.boundary (earlier ++ [.staged group]) →
        ReplayEvent.finished ∈ between) ∧
      (∃ r, (s.after actions).queue.policy = .replay r ∧
        (r.isOpen = false → r.boundarySeen = true)) ∧
      ∀ m ∈ s.history actions, ∃ r, m.before.queue.policy = .replay r ∧
        (r.isOpen = false → .rolledOver ∉ m.events ∧
          m.after.queue.stats.iterations = m.before.queue.stats.iterations) := by
  obtain ⟨schedule, hschedule, hvalid, hreplays⟩ := Queue.replays_create hs hstrategy
  have hscheduled := (Schedule.validate_eq_ok_iff.mp hvalid).2.2
  rw [hdoor] at hreplays
  obtain ⟨r, hafter, rfl, hguarded⟩ := Session.guards_after hreplays hscheduled actions
  refine ⟨r.schedule, hschedule, ?_, ⟨r, hafter.policy, ?_⟩, ?_⟩
  · intro earlier group between next later htrace hpast
    by_contra hfinished
    have hprefix : (earlier ++ .staged group :: between) ++ [.staged next] <+:
        s.trace actions := ⟨later, by simp [htrace]⟩
    exact hguarded.safe _ _ hprefix ⟨earlier, group, between, rfl, hpast, hfinished⟩
  · intro hclosed
    exact hguarded.closed (by simpa [Replay.isOpen] using hclosed)
  · intro m hm
    obtain ⟨before, -, hbefore⟩ := Session.exists_after_of_mem_history hm
    obtain ⟨r', hreplays', -, -⟩ := Session.guards_after hreplays hscheduled before
    rw [hbefore] at hreplays'
    obtain ⟨-, -, -, hiterations⟩ := Moment.onReplay hreplays'
    refine ⟨r', hreplays'.policy, fun hclosed => ?_⟩
    have hstays : .rolledOver ∉ m.events := by
      intro hroll
      have hopen := (Moment.rollsOver_of_mem_events hreplays'.policy hroll).2.2.2
      simp [Replay.isOpen] at hclosed
      omega
    have hnone : m.events.filter (· = .rolledOver) = [] := by
      rw [List.filter_eq_nil_iff]
      intro e he hroll
      exact hstays (of_decide_eq_true hroll ▸ he)
    exact ⟨hstays, by rw [hiterations, hnone, List.length_nil, Nat.add_zero]⟩

/-- The boundary tensor is staged, the door holds the first tensor of the next pass back, and a
completion lets it through. -/
def heldBackRun : List Action :=
  [.submit { name := "fc", key := 2, priority := -2, len := 8, payload := .gradient },
    .submit { name := "conv", key := 1, priority := -1, len := 16, payload := .gradient },
    .dispatch, .dispatch,
    .submit { name := "fc", key := 2, priority := -2, len := 8, payload := .gradient },
    .dispatch, .finish 16, .dispatch]

theorem boundary_door_safe_heldBackRun :
    Queue.create .push { strategy := .tokenReplay, schedule := some ⟨[-2, -1], -1, 2⟩ } {} =
        .ok twoTensorReplay.queue ∧
      ∃ (fc conv : List Task) (between : List ReplayEvent),
        twoTensorReplay.trace heldBackRun =
          [.staged fc] ++ .staged conv :: (between ++ [.staged fc]) ∧
        PastBoundary (-1) ([.staged fc] ++ [.staged conv]) ∧
        ReplayEvent.finished ∈ between := by
  have hs := Session.create_ofReplay ⟨[-2, -1], -1, 2⟩ rfl .boundary
  obtain ⟨schedule, hschedule, hsafe, -⟩ := boundary_door_safe hs rfl rfl heldBackRun
  cases hschedule
  set fc : List Task :=
    [{ name := "fc", key := 2, priority := -2, len := 8, payload := .gradient }]
  set conv : List Task :=
    [{ name := "conv", key := 1, priority := -1, len := 16, payload := .gradient }]
  have htrace : twoTensorReplay.trace heldBackRun =
      [.staged fc] ++ .staged conv :: ([.finished, .rolledOver] ++ [.staged fc]) := by
    decide +kernel
  have hpast : PastBoundary (-1) ([.staged fc] ++ [.staged conv]) :=
    ⟨conv, by simp [Passes.ofTrace, Passes.follow, Passes.stage], _, List.mem_cons_self, rfl⟩
  exact ⟨hs, fc, conv, [.finished, .rolledOver], htrace, hpast,
    hsafe _ _ _ _ _ htrace hpast⟩

end TensorDispatch
