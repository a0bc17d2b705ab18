import Mathlib.Algebra.GroupWithZero.Nat
import Mathlib.Data.List.TakeWhile
import TensorDispatch.Proofs.Replay.Completion

/-!
# Permits

The door of a replay counts permits: a group that is staged at the boundary of its pass, or behind
it, uses one, and a completion that is reported while the boundary has been seen grants one.

* `Replay.Sights` — the flag of the boundary stands for the boundary group of the current pass, and
  no door is closed before;
* `gatedGroups` — the groups of a trace that use a permit;
* `Replay.Balanced` — the balance of a counted door: permits, groups and completions that the limit
  cuts off against completions;
* `counted_door_balance` — along every run, a counted door lets no more groups through than it has
  permits for, and without completions no more than its limit.
-/

namespace TensorDispatch

/-! ### What a replay knows of its boundary -/

namespace Replay

/-- The boundary has been seen exactly where its group is staged in the current pass, and a closed
door has the boundary behind it. -/
structure Sights (r : Replay) (es : List ReplayEvent) : Prop where
  scheduled : r.schedule.boundary ∈ r.schedule.tokens
  closed : r.permits = 0 → r.boundarySeen = true
  seen : r.boundarySeen = true ↔ PastBoundary r.schedule.boundary es

theorem Sights.start {schedule : Schedule} (h : schedule.boundary ∈ schedule.tokens) (door : Door) :
    (Replay.start schedule door).Sights [] where
  scheduled := h
  closed := by simp [Replay.start]
  seen := by simp [Replay.start, PastBoundary]

namespace Sights

variable {r r' : Replay} {es : List ReplayEvent}

/-- A trace comes to the boundary with the group of the boundary tensor. -/
theorem seen_reach (h : r.Sights es) {priority : Int} {scheduled : Bool}
    (hnext : r.candidate? = some (priority, scheduled)) :
    (r.reach priority scheduled).boundarySeen = true ↔
      PastBoundary r.schedule.boundary (es ++ [.staged (r.pending.takeGroup priority).1]) := by
  rw [boundarySeen_reach_iff h.scheduled hnext, h.seen, pastBoundary_staged_iff]
  refine or_congr .rfl ⟨?_, ?_⟩
  · rintro rfl
    obtain ⟨t, ts, hgroup, -⟩ := Pending.takeGroup_eq_cons (hasPriority_of_candidate? hnext)
    have ht : t ∈ (r.pending.takeGroup r.schedule.boundary).1 := by simp [hgroup]
    exact ⟨t, ht, (Pending.mem_takeGroup ht).2⟩
  · rintro ⟨t, ht, hboundary⟩
    exact (Pending.mem_takeGroup ht).2.symm.trans hboundary

/-- A pass begins behind an open door, with its boundary ahead. -/
theorem rolled (h : r.Sights es) :
    r.rolled.Sights (es ++ if r.RollsOver then [.rolledOver] else []) := by
  by_cases hroll : r.RollsOver
  · have hopen : r.permits ≠ 0 := Nat.pos_iff_ne_zero.mp hroll.2.2.2
    rw [Replay.rolled, if_pos hroll, if_pos hroll]
    refine ⟨h.scheduled, fun hclosed => absurd hclosed hopen, ?_⟩
    exact iff_of_false (by simp [nextPass]) not_pastBoundary_rolledOver
  · simpa [Replay.rolled, hroll] using h

/-- A refill sees the boundary when it stages its group, and not before. -/
theorem refill {group : Option (List Task)} (hrefill : Refill r group r') (h : r.Sights es) :
    r'.Sights (es ++ group.toList.map ReplayEvent.staged) := by
  cases hrefill with
  | kept => simpa using h
  | held _ _ hseen hclosed =>
    rw [Option.toList_none, List.map_nil, List.append_nil]
    exact ⟨h.scheduled, fun _ => hseen, iff_of_true hseen (h.seen.mp (h.closed hclosed))⟩
  | @moved priority scheduled _ hnext _ =>
    rw [Option.toList_some, List.map_singleton]
    refine ⟨h.scheduled, fun hclosed => ?_, h.seen_reach hnext⟩
    by_cases hseen : (r.reach priority scheduled).boundarySeen = true
    · exact hseen
    · rw [permits_stage_reach, if_neg hseen] at hclosed
      have hbefore := h.closed hclosed
      rw [r.reach_of_boundarySeen hbefore] at hseen
      exact absurd hbefore hseen

/-- A completion leaves the boundary as it is. -/
theorem afterCompletion (h : r.Sights es) : r.completed.Sights (es ++ [.finished]) := by
  have hseen : r.boundarySeen = true ↔ PastBoundary r.schedule.boundary (es ++ [.finished]) :=
    h.seen.trans pastBoundary_finished_iff.symm
  unfold Replay.completed
  split
  · rename_i hbehind
    split
    · exact ⟨h.scheduled, fun _ => hbehind, hseen⟩
    · exact ⟨h.scheduled, h.closed, hseen⟩
  · exact ⟨h.scheduled, h.closed, hseen⟩

/-- One action keeps the invariant. -/
theorem onReplay {m : Moment} {events : List ReplayEvent} (hm : m.OnReplay r events r')
    (h : r.Sights es) : r'.Sights (es ++ events) := by
  cases hm with
  | submitted =>
    rw [List.append_nil]
    exact ⟨h.scheduled, h.closed, h.seen⟩
  | polled =>
    have hrefilled := h.rolled.refill r.rolled.refill
    rw [List.append_assoc] at hrefilled
    obtain ⟨later, heq⟩ :=
      r.rolled.refilled.exists_releaseStaged_eq (m.before.queue.admits m.before.readiness)
    rw [Moment.poll, heq]
    exact ⟨hrefilled.scheduled, hrefilled.closed, hrefilled.seen⟩
  | completed => exact h.afterCompletion
  | other => simpa using h

end Sights

end Replay

/-! ### Groups behind a boundary -/

/-- The groups of a pass from the one of the boundary on. -/
def fromBoundary (boundary : Int) (pass : List (List Task)) : List (List Task) :=
  pass.dropWhile fun group => group.all fun t => t.priority != boundary

/-- How many groups a trace stages at the boundary of their pass or behind it. -/
def gatedGroups (boundary : Int) (es : List ReplayEvent) : Nat :=
  ((Passes.ofTrace es).completed.map fun pass => (fromBoundary boundary pass).length).sum +
    (fromBoundary boundary (Passes.ofTrace es).current).length

section

variable {boundary : Int} {es : List ReplayEvent}

instance : Decidable (PastBoundary boundary es) :=
  inferInstanceAs (Decidable (∃ group ∈ _, ∃ t ∈ group, _))

/-- A pass has come to its boundary if a group of it stands there. -/
theorem fromBoundary_eq_nil_iff {pass : List (List Task)} :
    fromBoundary boundary pass = [] ↔ ¬ ∃ group ∈ pass, ∃ t ∈ group, t.priority = boundary := by
  simp [fromBoundary, List.dropWhile_eq_nil_iff]

/-- A group at the end of a pass stands at the boundary or behind it, or the pass has not come to
its boundary yet. -/
theorem length_fromBoundary_concat (pass : List (List Task)) (group : List Task) :
    (fromBoundary boundary (pass ++ [group])).length =
      (fromBoundary boundary pass).length +
        if fromBoundary boundary (pass ++ [group]) = [] then 0 else 1 := by
  have happend : fromBoundary boundary (pass ++ [group]) =
      if (fromBoundary boundary pass).isEmpty then fromBoundary boundary [group]
      else fromBoundary boundary pass ++ [group] := List.dropWhile_append
  rw [happend]
  by_cases hpass : fromBoundary boundary pass = []
  · rw [hpass, List.isEmpty_nil, if_pos rfl]
    cases hgroup : group.all fun t => t.priority != boundary with
    | true => simp [fromBoundary, List.dropWhile, hgroup]
    | false => simp [fromBoundary, List.dropWhile, hgroup]
  · have hfilled : (fromBoundary boundary pass).isEmpty = false := by simpa using hpass
    simp [hfilled]

theorem gatedGroups_rolledOver :
    gatedGroups boundary (es ++ [.rolledOver]) = gatedGroups boundary es := by
  simp [gatedGroups, Passes.ofTrace_append, Passes.follow, Passes.roll, fromBoundary]

theorem gatedGroups_finished :
    gatedGroups boundary (es ++ [.finished]) = gatedGroups boundary es := by
  simp [gatedGroups, Passes.ofTrace_append, Passes.follow]

/-- A group is counted where the trace has come to the boundary with it. -/
theorem gatedGroups_staged (group : List Task) :
    gatedGroups boundary (es ++ [.staged group]) =
      gatedGroups boundary es + if PastBoundary boundary (es ++ [.staged group]) then 1 else 0 := by
  have hcurrent : (Passes.ofTrace (es ++ [.staged group])).current =
      (Passes.ofTrace es).current ++ [group] := by
    simp [Passes.ofTrace_append, Passes.follow, Passes.stage]
  have hcompleted : (Passes.ofTrace (es ++ [.staged group])).completed =
      (Passes.ofTrace es).completed := by
    simp [Passes.ofTrace_append, Passes.follow, Passes.stage]
  have hpast : PastBoundary boundary (es ++ [.staged group]) ↔
      ¬ fromBoundary boundary ((Passes.ofTrace es).current ++ [group]) = [] := by
    rw [fromBoundary_eq_nil_iff, not_not, PastBoundary, hcurrent]
  rw [gatedGroups, gatedGroups, hcurrent, hcompleted, length_fromBoundary_concat, Nat.add_assoc]
  simp only [hpast, ite_not]

end

/-! ### The balance of a counted door -/

namespace Replay

/-- A replay behind a counted door after a trace in which so many completions were reported behind
a boundary, and so many of them found as many permits as the limit allows. -/
structure Balanced (r : Replay) (limit : Nat) (es : List ReplayEvent) (reported cutOff : Nat) :
    Prop where
  sights : r.Sights es
  door : r.door = .counted limit
  capped : r.permits ≤ max 1 limit
  /-- Only the permit of the start may exceed the limit, and the first boundary uses it. -/
  within : r.boundarySeen = true → r.permits ≤ limit
  balance : r.permits + gatedGroups r.schedule.boundary es + cutOff = 1 + reported

theorem Balanced.start {schedule : Schedule} (h : schedule.boundary ∈ schedule.tokens)
    (limit : Nat) : (Replay.start schedule (.counted limit)).Balanced limit [] 0 0 where
  sights := .start h _
  door := rfl
  capped := Nat.le_max_left 1 limit
  within := by simp [Replay.start]
  balance := rfl

namespace Balanced

variable {r r' : Replay} {limit reported cutOff : Nat} {es : List ReplayEvent}

/-- A rollover keeps the permits. -/
theorem rolled (h : r.Balanced limit es reported cutOff) :
    r.rolled.Balanced limit (es ++ if r.RollsOver then [.rolledOver] else []) reported cutOff := by
  have hsights := h.sights.rolled
  by_cases hroll : r.RollsOver
  · rw [if_pos hroll] at hsights ⊢
    rw [Replay.rolled, if_pos hroll] at hsights ⊢
    refine ⟨hsights, h.door, h.capped, by simp [nextPass], ?_⟩
    rw [gatedGroups_rolledOver]
    exact h.balance
  · simpa [Replay.rolled, hroll] using h

/-- A group at the boundary or behind it uses a permit, and there is one to use. -/
theorem refill {group : Option (List Task)} (hrefill : Refill r group r')
    (h : r.Balanced limit es reported cutOff) :
    r'.Balanced limit (es ++ group.toList.map ReplayEvent.staged) reported cutOff := by
  have hsights := h.sights.refill hrefill
  cases hrefill with
  | kept => simpa using h
  | held _ _ _ hclosed =>
    rw [Option.toList_none, List.map_nil, List.append_nil] at hsights ⊢
    refine ⟨hsights, h.door, h.capped, fun _ => ?_, h.balance⟩
    have hnone : r.permits ≤ limit := hclosed ▸ Nat.zero_le limit
    exact hnone
  | @moved priority scheduled _ hnext hopen =>
    rw [Option.toList_some, List.map_singleton] at hsights ⊢
    have hafter : r.permitsAfterTensor = r.permits - 1 := by rw [permitsAfterTensor, h.door]
    have hpermits := r.permits_stage_reach priority scheduled
    have hgated : gatedGroups r.schedule.boundary
        (es ++ [.staged (r.pending.takeGroup priority).1]) = _ := gatedGroups_staged _
    have hcapped := h.capped
    have hbalance := h.balance
    simp only [← h.sights.seen_reach hnext] at hgated
    by_cases hseen : (r.reach priority scheduled).boundarySeen = true
    -- there is a permit to use, so counting down does not stop at zero
    · have hpos := hopen hseen
      rw [if_pos hseen] at hpermits hgated
      have hwithin : ((r.reach priority scheduled).stage priority scheduled).permits ≤ limit := by
        omega
      refine ⟨hsights, h.door, by omega, fun _ => hwithin, ?_⟩
      show _ + gatedGroups r.schedule.boundary _ + _ = _
      omega
    · rw [if_neg hseen] at hpermits hgated
      refine ⟨hsights, h.door, by omega, fun hreached => absurd hreached hseen, ?_⟩
      show _ + gatedGroups r.schedule.boundary _ + _ = _
      omega

/-- A completion behind the boundary grants a permit, unless the limit cuts it off. -/
theorem afterCompletion (h : r.Balanced limit es reported cutOff)
    (hlimit : limit < halfWordBound - 1) :
    r.completed.Balanced limit (es ++ [.finished])
      (reported + if r.boundarySeen then 1 else 0)
      (cutOff + if r.boundarySeen && decide (limit ≤ r.permits) then 1 else 0) := by
  have hsights := h.sights.afterCompletion
  have hbalance := h.balance
  cases hseen : r.boundarySeen with
  | true =>
    -- behind the boundary the permits are within the limit, so counting up does not overflow
    have hwithin := h.within hseen
    have hgrant : r.grantPermit = .ok (min (r.permits + 1) limit) := by
      rw [grantPermit, h.door]
      exact if_pos (by omega)
    have hcompleted : r.completed = { r with permits := min (r.permits + 1) limit } := by
      simp [Replay.completed, hseen, hgrant]
    rw [hcompleted] at hsights ⊢
    refine ⟨hsights, h.door, ?_, fun _ => Nat.min_le_right _ _, ?_⟩
    · exact (Nat.min_le_right _ _).trans (Nat.le_max_right _ _)
    · show min (r.permits + 1) limit + gatedGroups r.schedule.boundary _ + _ = _
      rw [gatedGroups_finished]
      simp only [Bool.true_and, decide_eq_true_eq, if_true]
      split <;> omega
  | false =>
    have hcompleted : r.completed = r := by simp [Replay.completed, hseen]
    rw [hcompleted] at hsights ⊢
    refine ⟨hsights, h.door, h.capped, h.within, ?_⟩
    rw [gatedGroups_finished]
    simpa using hbalance

end Balanced

end Replay

/-! ### Runs -/

/-- The permits of the door, where there is one. -/
def Policy.permits? : Policy → Option Nat
  | replay r => some r.permits
  | _ => none

namespace Moment

/-- Whether a completion is reported while the boundary has been seen. -/
def reportsBehindBoundary (m : Moment) : Bool :=
  m.action.isReport && m.before.queue.policy.boundarySeen

/-- Whether such a completion grants nothing, since the door has as many permits as its limit. -/
def isCutOff (limit : Nat) (m : Moment) : Bool :=
  m.reportsBehindBoundary && m.before.queue.policy.permits?.any (limit ≤ ·)

theorem finished_mem_events_iff {m : Moment} :
    .finished ∈ m.events ↔ m.action.isReport = true := by
  refine ⟨isReport_of_finished_mem, fun h => ?_⟩
  obtain ⟨s, a⟩ := m
  cases a with
  | finish len => simp [events]
  | _ => cases h

end Moment

namespace Replay.Balanced

variable {m : Moment} {r r' : Replay} {limit reported cutOff : Nat} {es : List ReplayEvent}

/-- One action keeps the balance. -/
theorem onReplay {events : List ReplayEvent} (hm : m.OnReplay r events r')
    (hevents : m.events = events) (hpolicy : m.before.queue.policy = .replay r)
    (hlimit : limit < halfWordBound - 1) (h : r.Balanced limit es reported cutOff) :
    r'.Balanced limit (es ++ events) (reported + if m.reportsBehindBoundary then 1 else 0)
      (cutOff + if m.isCutOff limit then 1 else 0) := by
  have hsights := h.sights.onReplay hm
  have hreport : m.action.isReport = true ↔ .finished ∈ events :=
    hevents ▸ Moment.finished_mem_events_iff.symm
  -- without a report, nothing is granted and nothing is cut off
  have hquiet (hnone : .finished ∉ events) :
      m.reportsBehindBoundary = false ∧ m.isCutOff limit = false := by
    have haction : m.action.isReport = false := by
      rw [Bool.eq_false_iff, ne_eq, hreport]
      exact hnone
    simp [Moment.isCutOff, Moment.reportsBehindBoundary, haction]
  cases hm with
  | submitted =>
    obtain ⟨hreported, hcut⟩ := hquiet (by simp)
    rw [List.append_nil] at hsights ⊢
    rw [hreported, hcut]
    exact ⟨hsights, h.door, h.capped, h.within, h.balance⟩
  | polled =>
    obtain ⟨hreported, hcut⟩ := hquiet r.finished_notMem_pollEvents
    have hrefilled := h.rolled.refill r.rolled.refill
    rw [List.append_assoc] at hrefilled
    obtain ⟨later, heq⟩ :=
      r.rolled.refilled.exists_releaseStaged_eq (m.before.queue.admits m.before.readiness)
    rw [Moment.poll, heq] at hsights ⊢
    rw [hreported, hcut]
    exact ⟨hsights, hrefilled.door, hrefilled.capped, hrefilled.within, hrefilled.balance⟩
  | completed =>
    have haction : m.action.isReport = true := hreport.mpr (by simp)
    have hcompleted := h.afterCompletion hlimit
    simpa [Moment.isCutOff, Moment.reportsBehindBoundary, haction, hpolicy, Policy.boundarySeen,
      Policy.permits?] using hcompleted
  | other =>
    obtain ⟨hreported, hcut⟩ := hquiet (by simp)
    simpa [hreported, hcut] using h

end Replay.Balanced

namespace Session

/-- The replay of a session keeps the balance of its door along a history. -/
def Balances (schedule : Schedule) (limit : Nat) (h : List Moment) (s : Session) : Prop :=
  ∃ r, s.queue.Replays r ∧ r.schedule = schedule ∧
    r.Balanced limit (h.flatMap Moment.events) (h.countP Moment.reportsBehindBoundary)
      (h.countP (Moment.isCutOff limit))

/-- One more moment keeps the balance. -/
theorem Balances.act {schedule : Schedule} {limit : Nat} {h : List Moment} {m : Moment}
    (hlimit : limit < halfWordBound - 1) (hbefore : Balances schedule limit h m.before) :
    Balances schedule limit (h ++ [m]) m.after := by
  obtain ⟨r, hreplays, hschedule, hbalanced⟩ := hbefore
  obtain ⟨r', hreplays', hm, -⟩ := Moment.onReplay hreplays
  refine ⟨r', hreplays', (congrArg Prod.fst hm.plan).trans hschedule, ?_⟩
  rw [List.flatMap_append, List.flatMap_singleton, List.countP_append, List.countP_singleton,
    List.countP_append, List.countP_singleton]
  exact hbalanced.onReplay hm rfl hreplays.policy hlimit

theorem balances_after {s : Session} {schedule : Schedule} {limit : Nat}
    (hreplays : s.queue.Replays (.start schedule (.counted limit)))
    (hscheduled : schedule.boundary ∈ schedule.tokens) (hlimit : limit < halfWordBound - 1)
    (actions : List Action) : Balances schedule limit (s.history actions) (s.after actions) :=
  history_induction ⟨_, hreplays, rfl, .start hscheduled limit⟩ (fun _ _ => .act hlimit) actions

end Session

/-- **The balance of a counted door.** Along every run, the permits of a counted door are at most
its limit, or the one of the start, and there are some before the boundary of a pass. Together with
the groups that have been staged at the boundary of their pass or behind it they are at most one
more than the completions that were reported behind a boundary, and they are exactly that as long as
the limit has cut off none of these. So without a completion no more than the limit of such groups
are staged, or one. -/
theorem counted_door_balance {config : QueueConfig} {role : Role} {s : Session} {limit : Nat}
    (hs : Queue.create .push config role = .ok s.queue)
    (hstrategy : config.strategy = .tokenReplay) (hdoor : config.door = .counted limit)
    (hlimit : limit < halfWordBound - 1) (actions : List Action) :
    ∃ schedule r, config.schedule = some schedule ∧
      (s.after actions).queue.policy = .replay r ∧
      r.permits ≤ max 1 limit ∧
      (r.boundarySeen = false → 0 < r.permits) ∧
      r.permits + gatedGroups schedule.boundary (s.trace actions) ≤
        1 + (s.history actions).countP Moment.reportsBehindBoundary ∧
      ((∀ m ∈ s.history actions, m.isCutOff limit = false) →
        r.permits + gatedGroups schedule.boundary (s.trace actions) =
          1 + (s.history actions).countP Moment.reportsBehindBoundary) ∧
      ∀ stretch : List Action, (∀ a ∈ stretch, a.isReport = false) →
        gatedGroups schedule.boundary (s.trace (actions ++ stretch)) ≤
          gatedGroups schedule.boundary (s.trace actions) + max 1 limit := by
  obtain ⟨schedule, hschedule, hvalid, hreplays⟩ := Queue.replays_create hs hstrategy
  have hscheduled := (Schedule.validate_eq_ok_iff.mp hvalid).2.2
  rw [hdoor] at hreplays
  obtain ⟨r, hafter, rfl, hbalanced⟩ :=
    Session.balances_after hreplays hscheduled hlimit actions
  have hbalance := hbalanced.balance
  rw [← Session.trace] at hbalance
  refine ⟨r.schedule, r, hschedule, hafter.policy, hbalanced.capped, ?_, by omega, ?_, ?_⟩
  · intro hahead
    by_contra hclosed
    have hseen := hbalanced.sights.closed (Nat.eq_zero_of_not_pos hclosed)
    rw [hahead] at hseen
    cases hseen
  · intro hnone
    have hcut : (s.history actions).countP (Moment.isCutOff limit) = 0 := by
      simpa using hnone
    omega
  · intro stretch hquiet
    obtain ⟨r', -, hschedule', hlater⟩ :=
      Session.balances_after hreplays hscheduled hlimit (actions ++ stretch)
    have hbalance' := hlater.balance
    have hcapped := hbalanced.capped
    -- neither count moves in a stretch without reports
    have hsilent : ∀ m ∈ (s.after actions).history stretch, m.reportsBehindBoundary = false := by
      intro m hm
      obtain ⟨earlier, hinitial, -⟩ := Session.exists_after_of_mem_history hm
      have haction := hquiet m.action (hinitial.mem (by simp))
      simp [Moment.reportsBehindBoundary, haction]
    have hreported : ((s.after actions).history stretch).countP Moment.reportsBehindBoundary = 0 :=
      by simpa using hsilent
    have hcut : ((s.after actions).history stretch).countP (Moment.isCutOff limit) = 0 := by
      rw [List.countP_eq_zero]
      intro m hm
      simp [Moment.isCutOff, hsilent m hm]
    rw [← Session.trace, hschedule', Session.history_append, List.countP_append, List.countP_append,
      hreported, hcut] at hbalance'
    omega

/-- The boundary tensor uses the first permit, and the next group waits until two completions are
reported. -/
def bankedRun : List Action :=
  [.submit { name := "conv", key := 1, priority := -1, len := 16, payload := .gradient },
    .submit { name := "fc", key := 2, priority := -2, len := 8, payload := .gradient },
    .dispatch, .dispatch, .finish 16, .finish 8]

theorem counted_door_balance_bankedRun :
    let s := Session.ofReplay ⟨[-1, -2], -1, 2⟩ (.counted 2)
    Queue.create .push
        { strategy := .tokenReplay, schedule := some ⟨[-1, -2], -1, 2⟩, door := .counted 2 } {} =
          .ok s.queue ∧
      ∃ r, (s.after bankedRun).queue.policy = .replay r ∧ r.boundarySeen = true ∧ r.permits ≤ 2 ∧
        r.permits + gatedGroups (-1) (s.trace bankedRun) =
          1 + (s.history bankedRun).countP Moment.reportsBehindBoundary ∧
        gatedGroups (-1) (s.trace (bankedRun ++ [.dispatch, .dispatch])) ≤
          gatedGroups (-1) (s.trace bankedRun) + 2 := by
  intro s
  have hs := Session.create_ofReplay ⟨[-1, -2], -1, 2⟩ rfl (.counted 2)
  obtain ⟨schedule, r, hschedule, hpolicy, hcapped, -, -, hbalance, hstretch⟩ :=
    counted_door_balance (s := s) hs rfl rfl (by decide) bankedRun
  cases hschedule
  have hseen : (s.after bankedRun).queue.policy.boundarySeen = true := by decide +kernel
  rw [hpolicy] at hseen
  exact ⟨hs, r, hpolicy, hseen, hcapped, hbalance (by decide +kernel),
    hstretch [.dispatch, .dispatch] (by decide)⟩

end TensorDispatch
