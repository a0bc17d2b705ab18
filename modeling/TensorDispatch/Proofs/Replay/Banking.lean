import TensorDispatch.Proofs.Replay.Partition
import TensorDispatch.Proofs.Replay.Permits

/-!
# Permits that outlast their pass

A counted door banks the completions that are reported behind the boundary of a pass. A rollover
keeps what has been banked, so the next pass comes to its own boundary with more than one permit.

* `behindBoundary` — what has happened in the current pass since its boundary group was staged;
* `Session.carried` — the permits with which the current pass has begun;
* `Replay.Banks` — the invariant: before the boundary the permits are those that were carried over,
  and behind it the groups of the pass are paid for by these and by its own completions;
* `counted_door_carries_over` — so the groups behind a boundary exceed the completions behind it by
  less than the permits that were carried over. In the first pass, and with a limit of one, that is
  by none;
* `not_holdsPass_carriedRun` — with a limit of two, the second pass goes on behind its boundary
  without a completion.
-/

namespace TensorDispatch

/-! ### Behind the boundary of a pass -/

/-- What has happened behind the boundary group of a pass after one more event; nothing, as long as
the pass has not come to its boundary. -/
def followBehind (boundary : Int) (behind : Option (List ReplayEvent)) (e : ReplayEvent) :
    Option (List ReplayEvent) :=
  match e, behind with
  | .rolledOver, _ => none
  | .staged group, none => if group.any (·.priority == boundary) then some [] else none
  | .finished, none => none
  | e, some later => some (later ++ [e])

/-- What has happened in the current pass since its boundary group was staged. -/
def behindBoundary (boundary : Int) (es : List ReplayEvent) : Option (List ReplayEvent) :=
  es.foldl (followBehind boundary) none

/-- How many groups are staged. -/
def groupCount (es : List ReplayEvent) : Nat := (es.filterMap ReplayEvent.group?).length

section

variable {boundary : Int} {es : List ReplayEvent}

@[simp] theorem behindBoundary_concat (e : ReplayEvent) :
    behindBoundary boundary (es ++ [e]) =
      followBehind boundary (behindBoundary boundary es) e := by
  simp [behindBoundary]

@[simp] theorem groupCount_staged (group : List Task) :
    groupCount (es ++ [.staged group]) = groupCount es + 1 := by
  simp [groupCount, ReplayEvent.group?]

@[simp] theorem groupCount_finished : groupCount (es ++ [.finished]) = groupCount es := by
  simp [groupCount, ReplayEvent.group?]

/-- There is something behind the boundary once the trace has come to it. -/
theorem isSome_behindBoundary_iff :
    (behindBoundary boundary es).isSome = true ↔ PastBoundary boundary es := by
  induction es using List.reverseRecOn with
  | nil => simp [behindBoundary, PastBoundary]
  | append_singleton es e ih =>
    rw [behindBoundary_concat]
    cases e with
    | rolledOver => simp [followBehind, not_pastBoundary_rolledOver]
    | staged group =>
      rw [pastBoundary_staged_iff, ← ih]
      cases behindBoundary boundary es with
      | none => by_cases h : group.any (·.priority == boundary) <;> simp_all [followBehind]
      | some later => simp [followBehind]
    | finished =>
      rw [pastBoundary_finished_iff, ← ih]
      cases behindBoundary boundary es <;> simp [followBehind]

theorem behindBoundary_eq_none_iff :
    behindBoundary boundary es = none ↔ ¬ PastBoundary boundary es := by
  rw [← isSome_behindBoundary_iff, Option.not_isSome_iff_eq_none]

/-- Behind the boundary after a group: it is the boundary group itself, or one more. -/
theorem behindBoundary_staged_eq_some {group : List Task} {later : List ReplayEvent}
    (h : behindBoundary boundary (es ++ [.staged group]) = some later) :
    behindBoundary boundary es = none ∧ later = [] ∨
      ∃ sofar, behindBoundary boundary es = some sofar ∧ later = sofar ++ [.staged group] := by
  rw [behindBoundary_concat] at h
  cases hbehind : behindBoundary boundary es with
  | none =>
    rw [hbehind, followBehind] at h
    split at h
    · exact .inl ⟨rfl, (Option.some.inj h).symm⟩
    · cases h
  | some sofar =>
    rw [hbehind] at h
    exact .inr ⟨sofar, rfl, (Option.some.inj h).symm⟩

/-- A completion adds to what is behind the boundary, and begins nothing there. -/
theorem behindBoundary_finished_eq_some {later : List ReplayEvent}
    (h : behindBoundary boundary (es ++ [.finished]) = some later) :
    ∃ sofar, behindBoundary boundary es = some sofar ∧ later = sofar ++ [.finished] := by
  rw [behindBoundary_concat] at h
  cases hbehind : behindBoundary boundary es with
  | none =>
    rw [hbehind] at h
    cases h
  | some sofar =>
    rw [hbehind] at h
    exact ⟨sofar, rfl, (Option.some.inj h).symm⟩

end

/-! ### What is carried over -/

/-- The permits with which the pass that is current behind a moment has begun: where the moment
rolls over, those of the pass that is complete. -/
def Moment.carry (permits : Nat) (m : Moment) : Nat :=
  if .rolledOver ∈ m.events then m.before.queue.policy.permits?.getD permits else permits

/-- The permits with which the current pass of a run has begun; the first one begins with one. -/
def Session.carried (s : Session) (actions : List Action) : Nat :=
  (s.history actions).foldl Moment.carry 1

namespace Replay

/-- A replay behind a counted door after a trace whose current pass has begun with so many
permits. -/
structure Banks (r : Replay) (limit : Nat) (es : List ReplayEvent) (carried : Nat) : Prop where
  sights : r.Sights es
  door : r.door = .counted limit
  capped : r.permits ≤ max 1 limit
  positive : 1 ≤ carried
  carriedCapped : carried ≤ max 1 limit
  /-- Before the boundary, permits neither come nor go. -/
  ahead : ¬ PastBoundary r.schedule.boundary es → r.permits = carried
  /-- Behind it, every group is paid for, the boundary group included. -/
  behind : ∀ later, behindBoundary r.schedule.boundary es = some later →
    r.permits + (groupCount later + 1) ≤ later.count .finished + carried

theorem Banks.start {schedule : Schedule} (h : schedule.boundary ∈ schedule.tokens) (limit : Nat) :
    (Replay.start schedule (.counted limit)).Banks limit [] 1 where
  sights := .start h _
  door := rfl
  capped := Nat.le_max_left 1 limit
  positive := Nat.le_refl 1
  carriedCapped := Nat.le_max_left 1 limit
  ahead := fun _ => rfl
  behind := by simp [behindBoundary]

/-- A completion leaves a counted door with one permit more at most, and within its limit. -/
theorem exists_completed_eq {r : Replay} {limit : Nat} (hdoor : r.door = .counted limit) :
    ∃ permits, r.completed = { r with permits } ∧ permits ≤ r.permits + 1 ∧
      permits ≤ max r.permits limit ∧ (r.boundarySeen = false → permits = r.permits) := by
  by_cases hseen : r.boundarySeen = true
  · cases hgrant : r.grantPermit with
    | ok permits =>
      have hmin : permits = min (r.permits + 1) limit := by
        simp only [grantPermit, hdoor] at hgrant
        split at hgrant
        · exact (Except.ok.inj hgrant).symm
        · cases hgrant
      refine ⟨permits, by simp [completed, hseen, hgrant], by omega, by omega, ?_⟩
      intro hunseen
      rw [hunseen] at hseen
      cases hseen
    | error f =>
      have hkept : r.completed = r := by simp [completed, hseen, hgrant]
      exact ⟨r.permits, hkept, by omega, by omega, fun _ => rfl⟩
  · have hkept : r.completed = r := by simp [completed, hseen]
    exact ⟨r.permits, hkept, by omega, by omega, fun _ => rfl⟩

namespace Banks

variable {r r' : Replay} {limit carried : Nat} {es : List ReplayEvent}

/-- A new pass begins with the permits that are left. -/
theorem rolled (h : r.Banks limit es carried) :
    r.rolled.Banks limit (es ++ if r.RollsOver then [.rolledOver] else [])
      (if r.RollsOver then r.permits else carried) := by
  have hsights := h.sights.rolled
  by_cases hroll : r.RollsOver
  · have hopen : 0 < r.permits := hroll.2.2.2
    rw [if_pos hroll] at hsights
    rw [if_pos hroll, if_pos hroll]
    rw [Replay.rolled, if_pos hroll] at hsights ⊢
    refine ⟨hsights, h.door, h.capped, hopen, h.capped, fun _ => rfl, ?_⟩
    intro later hlater
    rw [behindBoundary_concat] at hlater
    cases hlater
  · simpa [Replay.rolled, hroll] using h

/-- A group that is staged before the boundary leaves the permits alone. -/
theorem stagedAhead {group : List Task} (h : r.Banks limit es carried)
    (hsights : r'.Sights (es ++ [.staged group])) (hschedule : r'.schedule = r.schedule)
    (hdoor : r'.door = r.door) (hpermits : r'.permits = r.permits)
    (hahead : ¬ PastBoundary r.schedule.boundary (es ++ [.staged group])) :
    r'.Banks limit (es ++ [.staged group]) carried := by
  refine ⟨hsights, hdoor.trans h.door, hpermits ▸ h.capped, h.positive, h.carriedCapped, ?_, ?_⟩
  · intro _
    exact hpermits.trans (h.ahead fun hpast => hahead (pastBoundary_staged_iff.mpr (.inl hpast)))
  · intro later hlater
    rw [hschedule, behindBoundary_eq_none_iff.mpr hahead] at hlater
    cases hlater

/-- A group that is staged at the boundary or behind it pays with a permit. -/
theorem stagedBehind {group : List Task} (h : r.Banks limit es carried)
    (hsights : r'.Sights (es ++ [.staged group])) (hschedule : r'.schedule = r.schedule)
    (hdoor : r'.door = r.door) (hpermits : r'.permits + 1 = r.permits)
    (hpast : PastBoundary r.schedule.boundary (es ++ [.staged group])) :
    r'.Banks limit (es ++ [.staged group]) carried := by
  have hcapped := h.capped
  refine ⟨hsights, hdoor.trans h.door, by omega, h.positive, h.carriedCapped, ?_, ?_⟩
  · intro hahead
    rw [hschedule] at hahead
    exact absurd hpast hahead
  · intro later hlater
    rw [hschedule] at hlater
    obtain ⟨hnone, rfl⟩ | ⟨sofar, hsofar, rfl⟩ := behindBoundary_staged_eq_some hlater
    -- this is the boundary group, and what was carried is still there
    · have hahead := h.ahead (behindBoundary_eq_none_iff.mp hnone)
      simp only [groupCount, List.filterMap_nil, List.length_nil, List.count_nil]
      omega
    · have hpaid := h.behind sofar hsofar
      rw [groupCount_staged, List.count_append, List.count_singleton]
      simp only [reduceCtorEq, beq_iff_eq, if_false]
      omega

/-- A group at the boundary uses a carried permit, and one behind it a permit that is left. -/
theorem refill {group : Option (List Task)} (hrefill : Refill r group r')
    (h : r.Banks limit es carried) :
    r'.Banks limit (es ++ group.toList.map ReplayEvent.staged) carried := by
  have hsights := h.sights.refill hrefill
  cases hrefill with
  | kept => simpa using h
  | held =>
    rw [Option.toList_none, List.map_nil, List.append_nil] at hsights ⊢
    exact ⟨hsights, h.door, h.capped, h.positive, h.carriedCapped, h.ahead, h.behind⟩
  | @moved priority scheduled _ hnext hopen =>
    rw [Option.toList_some, List.map_singleton] at hsights ⊢
    have hafter : r.permitsAfterTensor = r.permits - 1 := by rw [permitsAfterTensor, h.door]
    have hpermits := r.permits_stage_reach priority scheduled
    have hseen := h.sights.seen_reach hnext
    by_cases hpast : PastBoundary r.schedule.boundary
        (es ++ [.staged (r.pending.takeGroup priority).1])
    · have hpos := hopen (hseen.mpr hpast)
      rw [if_pos (hseen.mpr hpast)] at hpermits
      exact h.stagedBehind hsights rfl rfl (by omega) hpast
    · rw [if_neg fun hs => hpast (hseen.mp hs)] at hpermits
      exact h.stagedAhead hsights rfl rfl hpermits hpast

/-- A completion grants a permit at most, and only behind the boundary. -/
theorem afterCompletion (h : r.Banks limit es carried) :
    r.completed.Banks limit (es ++ [.finished]) carried := by
  have hsights := h.sights.afterCompletion
  obtain ⟨permits, hcompleted, hone, hlimit, hquiet⟩ := exists_completed_eq h.door
  have hcapped := h.capped
  rw [hcompleted] at hsights ⊢
  refine ⟨hsights, h.door, by show permits ≤ _; omega, h.positive, h.carriedCapped, ?_, ?_⟩
  · intro hpast
    have hbefore : ¬ PastBoundary r.schedule.boundary es := fun hp =>
      hpast (pastBoundary_finished_iff.mpr hp)
    have hunseen : r.boundarySeen = false := by
      rw [← Bool.not_eq_true, h.sights.seen]
      exact hbefore
    exact (hquiet hunseen).trans (h.ahead hbefore)
  · intro later hlater
    obtain ⟨sofar, hsofar, rfl⟩ := behindBoundary_finished_eq_some hlater
    have hpaid := h.behind sofar hsofar
    rw [groupCount_finished, List.count_append, List.count_singleton_self]
    show permits + _ ≤ _
    omega

/-- One action keeps the invariant. -/
theorem onReplay {m : Moment} {events : List ReplayEvent} (hm : m.OnReplay r events r')
    (hevents : m.events = events) (hpolicy : m.before.queue.policy = .replay r)
    (h : r.Banks limit es carried) : r'.Banks limit (es ++ events) (m.carry carried) := by
  have hcarry : m.carry carried = if .rolledOver ∈ events then r.permits else carried := by
    simp [Moment.carry, hevents, hpolicy, Policy.permits?]
  rw [hcarry]
  cases hm with
  | submitted =>
    rw [List.append_nil, if_neg List.not_mem_nil]
    exact ⟨⟨h.sights.scheduled, h.sights.closed, h.sights.seen⟩, h.door, h.capped, h.positive,
      h.carriedCapped, h.ahead, h.behind⟩
  | polled =>
    have hrefilled := h.rolled.refill r.rolled.refill
    rw [List.append_assoc] at hrefilled
    obtain ⟨later, heq⟩ :=
      r.rolled.refilled.exists_releaseStaged_eq (m.before.queue.admits m.before.readiness)
    rw [Moment.poll, heq]
    simp only [Replay.rolledOver_mem_pollEvents]
    exact ⟨⟨hrefilled.sights.scheduled, hrefilled.sights.closed, hrefilled.sights.seen⟩,
      hrefilled.door, hrefilled.capped, hrefilled.positive, hrefilled.carriedCapped,
      hrefilled.ahead, hrefilled.behind⟩
  | completed =>
    rw [if_neg (by simp)]
    exact h.afterCompletion
  | other => simpa using h

end Banks

end Replay

/-! ### Runs -/

namespace Session

/-- The replay of a session keeps to the invariant along a history, and as long as no pass has
rolled over, the permit of the start is all that was carried. -/
def Banks (schedule : Schedule) (limit : Nat) (h : List Moment) (s : Session) : Prop :=
  ∃ r, s.queue.Replays r ∧ r.schedule = schedule ∧
    r.Banks limit (h.flatMap Moment.events) (h.foldl Moment.carry 1) ∧
    (s.queue.stats.iterations = 0 → h.foldl Moment.carry 1 = 1)

/-- One more moment keeps the invariant. -/
theorem Banks.act {schedule : Schedule} {limit : Nat} {h : List Moment} {m : Moment}
    (hbefore : Banks schedule limit h m.before) : Banks schedule limit (h ++ [m]) m.after := by
  obtain ⟨r, hreplays, hschedule, hbanks, hfirst⟩ := hbefore
  obtain ⟨r', hreplays', hm, hiterations⟩ := Moment.onReplay hreplays
  refine ⟨r', hreplays', (congrArg Prod.fst hm.plan).trans hschedule, ?_, ?_⟩
  · rw [List.flatMap_append, List.flatMap_singleton, List.foldl_append, List.foldl_cons,
      List.foldl_nil]
    exact hbanks.onReplay hm rfl hreplays.policy
  · intro hzero
    rw [hzero] at hiterations
    have hnone : m.events.filter (· = .rolledOver) = [] :=
      List.eq_nil_of_length_eq_zero (by omega)
    have hstays : .rolledOver ∉ m.events := by
      intro hroll
      have hmem : ReplayEvent.rolledOver ∈ m.events.filter (· = .rolledOver) := by
        simpa using hroll
      rw [hnone] at hmem
      cases hmem
    rw [List.foldl_append, List.foldl_cons, List.foldl_nil, Moment.carry, if_neg hstays]
    exact hfirst (by omega)

theorem banks_after {s : Session} {schedule : Schedule} {limit : Nat}
    (hreplays : s.queue.Replays (.start schedule (.counted limit)))
    (hscheduled : schedule.boundary ∈ schedule.tokens) (actions : List Action) :
    Banks schedule limit (s.history actions) (s.after actions) :=
  history_induction ⟨_, hreplays, rfl, .start hscheduled limit, fun _ => rfl⟩
    (fun _ _ => .act) actions

/-- Behind the boundary group of the current pass, no more groups are staged than completions are
reported. -/
def HoldsPass (s : Session) (boundary : Int) (actions : List Action) : Prop :=
  ∀ later, behindBoundary boundary (s.trace actions) = some later →
    groupCount later ≤ later.count .finished

end Session

/-- **What a counted door carries over.** Along every run, the groups that are staged behind the
boundary group of the current pass are fewer than the completions reported there and the permits
with which the pass has begun together. These are at least one and at most the limit, or the one of
the start, and exactly one in the first pass. So in the first pass, and in every pass of a door
whose limit is at most one, no more groups are staged behind the boundary than completions are
reported. -/
theorem counted_door_carries_over {config : QueueConfig} {role : Role} {s : Session} {limit : Nat}
    (hs : Queue.create .push config role = .ok s.queue)
    (hstrategy : config.strategy = .tokenReplay) (hdoor : config.door = .counted limit)
    (actions : List Action) :
    ∃ schedule, config.schedule = some schedule ∧
      (∀ later, behindBoundary schedule.boundary (s.trace actions) = some later →
        groupCount later < later.count .finished + s.carried actions) ∧
      1 ≤ s.carried actions ∧ s.carried actions ≤ max 1 limit ∧
      ((s.after actions).queue.stats.iterations = 0 → s.carried actions = 1) ∧
      ((s.after actions).queue.stats.iterations = 0 ∨ limit ≤ 1 →
        s.HoldsPass schedule.boundary actions) := by
  obtain ⟨schedule, hschedule, hvalid, hreplays⟩ := Queue.replays_create hs hstrategy
  have hscheduled := (Schedule.validate_eq_ok_iff.mp hvalid).2.2
  rw [hdoor] at hreplays
  obtain ⟨r, -, rfl, hbanks, hfirst⟩ := Session.banks_after hreplays hscheduled actions
  have hpositive : 1 ≤ s.carried actions := hbanks.positive
  have hcapped : s.carried actions ≤ max 1 limit := hbanks.carriedCapped
  have hpaid : ∀ later, behindBoundary r.schedule.boundary (s.trace actions) = some later →
      groupCount later < later.count .finished + s.carried actions := by
    intro later hlater
    have hbehind := hbanks.behind later hlater
    rw [← Session.carried] at hbehind
    omega
  refine ⟨r.schedule, hschedule, hpaid, hpositive, hcapped, hfirst, ?_⟩
  intro hcase later hlater
  have hbehind := hpaid later hlater
  rcases hcase with hzero | hone
  · have hcarried : s.carried actions = 1 := hfirst hzero
    omega
  · omega

/-- Two completions of the first pass are banked, and the second pass comes to its boundary. -/
def carriedRun : List Action :=
  [.submit
      { name := "conv", key := 1, priority := -1, len := 16, partitions := 2,
        payload := .gradient },
    .submit
      { name := "conv", key := 2, priority := -1, len := 16, partitions := 2,
        payload := .gradient },
    .submit { name := "fc", key := 3, priority := -2, len := 8, payload := .gradient },
    .dispatch, .dispatch, .finish 16, .finish 16, .dispatch, .finish 8,
    .submit
      { name := "conv", key := 1, priority := -1, len := 16, partitions := 2,
        payload := .gradient },
    .submit
      { name := "conv", key := 2, priority := -1, len := 16, partitions := 2,
        payload := .gradient },
    .submit { name := "fc", key := 3, priority := -2, len := 8, payload := .gradient },
    .dispatch, .dispatch, .dispatch]

theorem counted_door_carries_over_carriedRun :
    let s := Session.ofReplay ⟨[-1, -2], -1, 2⟩ (.counted 2)
    Queue.create .push
        { strategy := .tokenReplay, schedule := some ⟨[-1, -2], -1, 2⟩, door := .counted 2 } {} =
          .ok s.queue ∧
      (s.after (carriedRun.take 9)).queue.stats.iterations = 0 ∧
      s.HoldsPass (-1) (carriedRun.take 9) ∧
      (s.after carriedRun).queue.stats.iterations = 1 ∧
      ∃ later, behindBoundary (-1) (s.trace carriedRun) = some later ∧
        groupCount later < later.count .finished + s.carried carriedRun := by
  intro s
  have hs := Session.create_ofReplay ⟨[-1, -2], -1, 2⟩ rfl (.counted 2)
  have hfirst : (s.after (carriedRun.take 9)).queue.stats.iterations = 0 := by decide +kernel
  obtain ⟨schedule, hschedule, -, -, -, -, hholds⟩ :=
    counted_door_carries_over (s := s) hs rfl rfl (carriedRun.take 9)
  cases hschedule
  obtain ⟨schedule, hschedule, hpaid, -⟩ :=
    counted_door_carries_over (s := s) hs rfl rfl carriedRun
  cases hschedule
  set fc : Task := { name := "fc", key := 3, priority := -2, len := 8, payload := .gradient }
  have hbehind : behindBoundary (-1) (s.trace carriedRun) = some [.staged [fc]] := by
    decide +kernel
  exact ⟨hs, hfirst, hholds (.inl hfirst), by decide +kernel, _, hbehind, hpaid _ hbehind⟩

theorem not_holdsPass_carriedRun :
    let s := Session.ofReplay ⟨[-1, -2], -1, 2⟩ (.counted 2)
    Queue.create .push
        { strategy := .tokenReplay, schedule := some ⟨[-1, -2], -1, 2⟩, door := .counted 2 } {} =
          .ok s.queue ∧
      ¬ s.HoldsPass (-1) carriedRun := by
  intro s
  refine ⟨Session.create_ofReplay ⟨[-1, -2], -1, 2⟩ rfl (.counted 2), fun hholds => ?_⟩
  set fc : Task := { name := "fc", key := 3, priority := -2, len := 8, payload := .gradient }
  have hbehind : behindBoundary (-1) (s.trace carriedRun) = some [.staged [fc]] := by
    decide +kernel
  have hle := hholds _ hbehind
  revert hle
  decide

end TensorDispatch
