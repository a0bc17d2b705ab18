import Mathlib.Order.Bounds.Basic
import TensorDispatch.Proofs.Replay.Reopening

/-!
# What a poll selects

Behind its rollover, a poll of a replay has four ways to go on: partitions are still staged, no
tensor is due, the tensor that is due is refused, or it passes the door.

* `Replay.IsDue` — the tensor that is due, said of priorities alone: the one of the front token if
  it waits, else the highest waiting one that the schedule never names;
* `Replay.candidate?_eq_some_iff` — in a store that keeps its order, this is the tensor that a
  replay looks for;
* `Replay.Selects` — the four ways, each with the group that is staged, the refusals that are
  counted, the gradient that is released and the replay that is left;
* `dispatch_selects` — along every run, each dispatch goes one of these ways.

The boundary is noted before the door is looked at, so a refusal could leave a trace. It leaves none
because only a tensor at the boundary or behind it closes the door (`Replay.Sights`): where a
refusal is possible, the boundary has been noted before.
-/

namespace TensorDispatch

namespace Replay

variable {r r' : Replay} {admits : Task → Bool} {priority : Int} {scheduled : Bool}

/-! ### The tensor that is due -/

/-- A gradient of this priority is pending. -/
def Waits (r : Replay) (priority : Int) : Prop := ∃ t ∈ r.pending.tasks, t.priority = priority

/-- The tensor that is due, and whether the schedule names it. -/
inductive IsDue (r : Replay) : Int → Bool → Prop
  /-- The tensor of the front token waits. -/
  | token {priority : Int} {later : List Int} (hfront : r.tokens = priority :: later)
      (hwaits : r.Waits priority) : IsDue r priority true
  /-- The tensor of the front token is late, and the highest one outside the schedule fills in. -/
  | filler {priority : Int} (hlate : ∀ token ∈ r.tokens.head?, ¬ r.Waits token)
      (hhighest : IsGreatest {p | r.Waits p ∧ p ∉ r.schedule.tokens} priority) :
      IsDue r priority false

/-- A tensor of the schedule is due where it is the one of the front token. -/
theorem IsDue.front (h : r.IsDue priority scheduled) (hnamed : priority ∈ r.schedule.tokens) :
    r.tokens.head? = some priority := by
  cases h with
  | token hfront => rw [hfront, List.head?_cons]
  | filler _ hhighest => exact absurd hnamed hhighest.1.2

/-- The pending gradients stand in descending priority. -/
def Descends (r : Replay) : Prop := r.pending.tasks.Pairwise fun t u => u.priority ≤ t.priority

/-- In a store in descending priority, the first gradient outside the schedule is a highest one. -/
theorem unscheduled?_eq_some_iff (h : r.Descends) :
    r.unscheduled? = some priority ↔
      IsGreatest {p | r.Waits p ∧ p ∉ r.schedule.tokens} priority := by
  have hgreatest : ∀ {p : Int}, r.unscheduled? = some p →
      IsGreatest {p | r.Waits p ∧ p ∉ r.schedule.tokens} p := by
    intro p hp
    obtain ⟨t, ht, rfl⟩ := Option.map_eq_some_iff.mp hp
    obtain ⟨hother, before, behind, hsplit, hbefore⟩ := List.find?_eq_some_iff_append.mp ht
    have hsorted := h
    rw [Descends, hsplit] at hsorted
    have hbehind := (List.pairwise_cons.mp (List.pairwise_append.mp hsorted).2.1).1
    constructor
    · exact ⟨⟨t, List.mem_of_find?_eq_some ht, rfl⟩, by simpa using hother⟩
    · rintro _ ⟨⟨u, hu, rfl⟩, hunnamed⟩
      rw [hsplit] at hu
      -- what stands in front of the first one is named by the schedule
      rcases List.mem_append.mp hu with hu | hu
      · exact absurd (by simpa using hbefore u hu) hunnamed
      · rcases List.mem_cons.mp hu with rfl | hu
        · exact le_refl _
        · exact hbehind u hu
  constructor
  · exact hgreatest
  · intro hpriority
    obtain ⟨t, ht, heq⟩ := hpriority.1.1
    have hfound : r.unscheduled? ≠ none := by
      intro hnone
      rw [unscheduled?, Option.map_eq_none_iff, List.find?_eq_none] at hnone
      have hnamed := hnone t ht
      rw [heq] at hnamed
      exact hpriority.1.2 (by simpa using hnamed)
    obtain ⟨p, hp⟩ := Option.ne_none_iff_exists'.mp hfound
    rw [hp, (hgreatest hp).unique hpriority]

theorem hasPriority_eq_true_iff {p : Int} : r.pending.hasPriority p = true ↔ r.Waits p :=
  Pending.hasPriority_iff

/-- A replay looks for the tensor that is due. -/
theorem candidate?_eq_some_iff (h : r.Descends) :
    r.candidate? = some (priority, scheduled) ↔ r.IsDue priority scheduled := by
  have hfiller : r.unscheduled?.map (·, false) = some (priority, scheduled) ↔
      IsGreatest {p | r.Waits p ∧ p ∉ r.schedule.tokens} priority ∧ scheduled = false := by
    simp [← unscheduled?_eq_some_iff h, eq_comm]
  constructor
  · intro hnext
    unfold candidate? at hnext
    split at hnext
    · rename_i htokens
      obtain ⟨hhighest, rfl⟩ := hfiller.mp hnext
      exact .filler (by simp [htokens]) hhighest
    · rename_i token later htokens
      split at hnext
      · rename_i hwaits
        cases hnext
        exact .token htokens (hasPriority_eq_true_iff.mp hwaits)
      · rename_i hlate
        obtain ⟨hhighest, rfl⟩ := hfiller.mp hnext
        refine .filler ?_ hhighest
        simpa [htokens, hasPriority_eq_true_iff] using hlate
  · intro hdue
    cases hdue with
    | token hfront hwaits => simp [candidate?, hfront, hasPriority_eq_true_iff.mpr hwaits]
    | filler hlate hhighest =>
      have hnext := hfiller.mpr ⟨hhighest, rfl⟩
      cases htokens : r.tokens with
      | nil => simpa only [candidate?, htokens] using hnext
      | cons token later =>
        have hnot : ¬ r.pending.hasPriority token = true := by
          rw [hasPriority_eq_true_iff]
          exact hlate token (by simp [htokens])
        simpa only [candidate?, htokens, if_neg hnot] using hnext

/-! ### The ways a poll goes on -/

/-- The replay after a tensor has passed the door, the staging buffer aside. The tensor uses a
permit if it is the boundary or stands behind it. -/
def staging (r : Replay) (priority : Int) (scheduled : Bool) (rest : Pending) : Replay :=
  let boundarySeen := r.boundarySeen || priority == r.schedule.boundary
  { r with
    boundarySeen
    pending := rest
    tokens := if scheduled then r.tokens.tail else r.tokens
    stagedTensors := r.stagedTensors + 1
    permits := if boundarySeen then r.permitsAfterTensor else r.permits }

/-- What a poll makes of a replay behind its rollover: the group it stages, the refusals it counts,
the gradient it releases, and the replay it leaves. -/
inductive Selects (admits : Task → Bool) (r : Replay) :
    Option (List Task) → Nat → Option Task → Replay → Prop
  /-- Partitions are staged. The front one leaves if it is admitted, and else nothing changes. -/
  | front {t : Task} {later : List Task} (hstaged : r.staged = t :: later) :
      Selects admits r none 0 (if admits t then some t else none)
        { r with staged := if admits t then later else t :: later }
  /-- No tensor is due. -/
  | nothingDue (hempty : r.staged = []) (hnone : ∀ p b, ¬ r.IsDue p b) :
      Selects admits r none 0 none r
  /-- The tensor that is due finds the door closed behind the boundary. Nothing changes. -/
  | refused {priority : Int} {scheduled : Bool} (hempty : r.staged = [])
      (hdue : r.IsDue priority scheduled) (hseen : r.boundarySeen = true)
      (hclosed : r.isOpen = false) : Selects admits r none 1 none r
  /-- The tensor that is due is staged, and its first partition leaves if it is admitted. -/
  | passed {priority : Int} {scheduled : Bool} {t : Task} {later : List Task} {rest : Pending}
      (hempty : r.staged = []) (hdue : r.IsDue priority scheduled)
      (hpasses : ¬ (r.boundarySeen = true ∧ r.isOpen = false))
      (hgroup : r.pending.takeGroup priority = (t :: later, rest)) :
      Selects admits r (some (t :: later)) 0 (if admits t then some t else none)
        { r.staging priority scheduled rest with
          staged := if admits t then later else t :: later }

/-- What a refill comes to is what staging comes to. -/
theorem refill_of_stageNext {outcome : Staging} (hempty : r.staged = [])
    (hstage : r.stageNext = (outcome, r')) :
    r.refilled = r' ∧ (r.Holds ↔ outcome = .heldBack) ∧
      r.newGroup? = if outcome = .moved then some r'.staged else none := by
  have hrefilled : r.refilled = r' := by simp [refilled, hempty, hstage]
  have hholds : r.Holds ↔ outcome = .heldBack := by simp [Holds, hempty, hstage]
  refine ⟨hrefilled, hholds, ?_⟩
  cases outcome <;> simp [newGroup?, hempty, hstage]

/-- A release from a buffer that is not empty concerns its front. -/
theorem releaseStaged_cons {t : Task} {later : List Task} (h : r.staged = t :: later) :
    r.releaseStaged admits =
      (if admits t then some t else none,
        { r with staged := if admits t then later else t :: later }) := by
  cases hadmits : admits t with
  | true => simp [releaseStaged, h, hadmits]
  | false =>
    simp only [releaseStaged, h, hadmits, Bool.false_eq_true, if_false]
    rw [← h]

/-- What is reached and staged has passed the door. -/
theorem stage_reach (hscheduled : r.schedule.boundary ∈ r.schedule.tokens)
    (hnext : r.candidate? = some (priority, scheduled)) {group : List Task} {rest : Pending}
    (hgroup : r.pending.takeGroup priority = (group, rest)) :
    (r.reach priority scheduled).stage priority scheduled =
      { r.staging priority scheduled rest with staged := r.staged ++ group } := by
  have hseen : (r.reach priority scheduled).boundarySeen =
      (r.boundarySeen || priority == r.schedule.boundary) := by
    rw [Bool.eq_iff_iff, boundarySeen_reach_iff hscheduled hnext]
    simp
  simp only [stage, hseen, staging]
  simp [reach, hgroup, permitsAfterTensor]

/-- Where partitions are staged, a poll is about the front one. -/
theorem selects_of_staged {t : Task} {later : List Task} (hstaged : r.staged = t :: later)
    (admits : Task → Bool) :
    r.Selects admits r.newGroup? (if r.Holds then 1 else 0) (r.refilled.releaseStaged admits).1
      (r.refilled.releaseStaged admits).2 := by
  have hholds : ¬ r.Holds := by simp [Holds, hstaged]
  have hrefilled : r.refilled = r := by simp [refilled, hstaged]
  have hgroup : r.newGroup? = none := by simp [newGroup?, hstaged]
  rw [if_neg hholds, hrefilled, hgroup, releaseStaged_cons hstaged]
  exact .front hstaged

/-- A poll goes on in one of the four ways. -/
theorem selects {es : List ReplayEvent} (h : r.Sights es) (hdescends : r.Descends)
    (admits : Task → Bool) :
    r.Selects admits r.newGroup? (if r.Holds then 1 else 0) (r.refilled.releaseStaged admits).1
      (r.refilled.releaseStaged admits).2 := by
  cases hempty : r.staged with
  | cons t later => exact selects_of_staged hempty admits
  | nil =>
    have hreleased : r.releaseStaged admits = (none, r) := by simp [releaseStaged, hempty]
    cases hnext : r.candidate? with
    | none =>
      obtain ⟨hrefilled, hholds, hgroup⟩ :=
        refill_of_stageNext hempty (stageNext_of_candidate?_eq_none hnext)
      have hnone : ∀ p b, ¬ r.IsDue p b := by
        intro p b hdue
        rw [(candidate?_eq_some_iff hdescends).mpr hdue] at hnext
        cases hnext
      have hfree : ¬ r.Holds := fun hheld => Staging.noConfusion (hholds.mp hheld)
      rw [hrefilled, hgroup, hreleased, if_neg hfree]
      exact .nothingDue hempty hnone
    | some next =>
      obtain ⟨priority, scheduled⟩ := next
      have hdue := (candidate?_eq_some_iff hdescends).mp hnext
      have hstage := stageNext_of_candidate?_eq_some hnext
      by_cases hclosed : r.boundarySeen = true ∧ r.isOpen = false
      · rw [r.reach_of_boundarySeen hclosed.1, hclosed.1, hclosed.2] at hstage
        obtain ⟨hrefilled, hholds, hgroup⟩ := refill_of_stageNext hempty hstage
        rw [hrefilled, hgroup, hreleased, if_pos (hholds.mpr rfl)]
        exact .refused hempty hdue hclosed.1 hclosed.2
      -- a closed door has the boundary behind it, so where the boundary is ahead the door is open
      · have hopen : r.isOpen = true := by
          by_contra hshut
          have hzero : r.permits = 0 := by simpa [isOpen] using hshut
          exact hclosed ⟨h.closed hzero, by simpa using hshut⟩
        obtain ⟨t, later, hcons, -⟩ := Pending.takeGroup_eq_cons (hasPriority_of_candidate? hnext)
        have htaken : r.pending.takeGroup priority =
            (t :: later, (r.pending.takeGroup priority).2) := by rw [← hcons]
        rw [hopen, Bool.not_true, Bool.and_false, if_neg Bool.false_ne_true,
          stage_reach h.scheduled hnext htaken, hempty, List.nil_append] at hstage
        obtain ⟨hrefilled, hholds, hgroup⟩ := refill_of_stageNext hempty hstage
        have hfree : ¬ r.Holds := fun hheld => Staging.noConfusion (hholds.mp hheld)
        rw [hrefilled, hgroup, releaseStaged_cons rfl, if_neg hfree]
        exact .passed hempty hdue hclosed htaken

namespace Selects

variable {group : Option (List Task)} {blocks : Nat} {released : Option Task}

/-- The tensor that is due is refused exactly where the door is closed behind the boundary. -/
theorem refused_iff (h : r.Selects admits group blocks released r')
    (hempty : r.staged = []) (hdue : r.IsDue priority scheduled) :
    blocks = 1 ↔ r.boundarySeen = true ∧ r.isOpen = false := by
  cases h with
  | front hstaged => simp [hstaged] at hempty
  | nothingDue _ hnone => exact absurd hdue (hnone priority scheduled)
  | refused _ _ hseen hclosed => simp [hseen, hclosed]
  | passed _ _ hpasses => simpa using hpasses

/-- What is staged is of one priority, and the schedule does not name it unless it is the one of the
front token. -/
theorem staged_front (h : r.Selects admits group blocks released r') {t : Task}
    (ht : t ∈ group.getD []) (hnamed : t.priority ∈ r.schedule.tokens) :
    r.tokens.head? = some t.priority := by
  cases h with
  | front => simp at ht
  | nothingDue => simp at ht
  | refused => simp at ht
  | @passed priority _ u later rest _ hdue _ hgroup =>
    have hmem : t ∈ (r.pending.takeGroup priority).1 := by simpa [hgroup] using ht
    rw [(Pending.mem_takeGroup hmem).2] at hnamed ⊢
    exact hdue.front hnamed

end Selects

theorem barrierBlocks_statsAfterPoll (r : Replay) (stats : Stats) :
    (r.statsAfterPoll stats).barrierBlocks =
      stats.barrierBlocks + if r.rolled.Holds then 1 else 0 := by
  by_cases hroll : r.RollsOver <;> by_cases hheld : r.rolled.Holds <;>
    simp [statsAfterPoll, hroll, hheld, Stats.countIteration, Stats.countBlock]

end Replay

/-! ### Runs -/

namespace Session

/-- Along every run, the gradients of a replay stand in descending priority. -/
theorem descends_after {s : Session} {schedule : Schedule} {door : Door}
    (hreplays : s.queue.Replays (.start schedule door)) (hstats : s.queue.stats = {})
    {actions : List Action} {r : Replay} (hafter : (s.after actions).queue.Replays r) :
    r.Descends := by
  obtain ⟨r', passes, waiting, taken, hafter', -, hemission, -⟩ :=
    history_induction (emits_start hreplays hstats) (fun _ _ => .act) actions
  have heq : r' = r := by simpa using hafter'.policy.symm.trans hafter.policy
  subst heq
  refine (hemission.numbering.not_before hemission.ordered).imp fun {t u} hbefore => ?_
  unfold Task.Before at hbefore
  omega

end Session

/-- **Selection and refusal.** Along every run of a queue under token replay, a dispatch is
answered, and its poll goes on in one of four ways behind the rollover. The front of a staging
buffer that is not empty leaves if it is admitted. Else the tensor that is due, if any, is refused
exactly where the boundary has been seen in this pass and the door is closed; a refusal counts one
block and changes nothing. A tensor that is not refused is staged, and its first partition leaves if
it is admitted. No tensor of the schedule is staged unless it is the one of the front token. -/
theorem dispatch_selects {config : QueueConfig} {role : Role} {s : Session}
    (hs : Queue.create .push config role = .ok s.queue)
    (hstrategy : config.strategy = .tokenReplay) (actions : List Action) :
    let now := s.after actions
    let m : Moment := ⟨now, .dispatch⟩
    ∃ (schedule : Schedule) (r r' : Replay) (group : Option (List Task)) (blocks : Nat)
      (released : Option Task),
      config.schedule = some schedule ∧ r.schedule = schedule ∧
      now.queue.policy = .replay r ∧ m.after.queue.policy = .replay r' ∧ m.outcome.IsAnswered ∧
      r.rolled.Selects (now.queue.admits now.readiness) group blocks released r' ∧
      m.returnedGradient? = released.map Task.released ∧
      m.after.queue.stats.barrierBlocks = now.queue.stats.barrierBlocks + blocks ∧
      m.events =
        (if r.RollsOver then [.rolledOver] else []) ++ group.toList.map ReplayEvent.staged ∧
      (r.rolled.boundarySeen = true ↔ PastBoundary schedule.boundary
        (s.trace actions ++ if r.RollsOver then [.rolledOver] else [])) ∧
      (r.rolled.staged = [] → ∀ priority scheduled, r.rolled.IsDue priority scheduled →
        (blocks = 1 ↔ r.rolled.boundarySeen = true ∧ r.rolled.isOpen = false)) ∧
      ∀ t ∈ group.getD [], t.priority ∈ schedule.tokens →
        r.rolled.tokens.head? = some t.priority := by
  dsimp only
  obtain ⟨schedule, hschedule, hvalid, hreplays⟩ := Queue.replays_create hs hstrategy
  have hscheduled := (Schedule.validate_eq_ok_iff.mp hvalid).2.2
  have hstats : s.queue.stats = {} := by rw [(Queue.create_eq_ok hs).2.2]
  obtain ⟨r, hafter, hplan, hsights⟩ := Session.sights_after hreplays hscheduled actions
  have hfollows : r.schedule = schedule := congrArg Prod.fst hplan
  have hrolled : r.rolled.schedule = schedule := by
    rw [← hfollows]
    exact congrArg Prod.fst r.plan_rolled
  have hdescends : r.rolled.Descends := by
    rw [Replay.Descends, Replay.pending_rolled]
    exact Session.descends_after hreplays hstats hafter
  obtain ⟨hanswered, hpolls, hreturned, -, hblocks⟩ := Moment.dispatch_polls hafter
  have hselects := Replay.selects hsights.rolled hdescends
    ((s.after actions).queue.admits (s.after actions).readiness)
  have hseen := hsights.rolled.seen
  rw [hrolled] at hseen
  rw [Replay.barrierBlocks_statsAfterPoll] at hblocks
  refine ⟨schedule, r, _, r.rolled.newGroup?, _, _, hschedule, hfollows, hafter.policy,
    hpolls.policy, hanswered, hselects, hreturned, hblocks, ?_, hseen, ?_, ?_⟩
  · simp [Moment.events, hafter.policy, Replay.pollEvents]
  · exact fun hempty priority scheduled hdue => hselects.refused_iff hempty hdue
  · intro t ht hnamed
    exact hselects.staged_front ht (hrolled ▸ hnamed)

/-- The boundary tensor is the first of its pass, and the tensor behind it is pending already. -/
def refusedRun : List Action :=
  [.submit { name := "conv", key := 1, priority := -1, len := 16, payload := .gradient },
    .submit { name := "fc", key := 2, priority := -2, len := 8, payload := .gradient },
    .dispatch]

theorem dispatch_selects_refusedRun :
    let s := Session.ofReplay ⟨[-1, -2], -1, 2⟩ .boundary
    let m : Moment := ⟨s.after refusedRun, .dispatch⟩
    Queue.create .push { strategy := .tokenReplay, schedule := some ⟨[-1, -2], -1, 2⟩ } {} =
        .ok s.queue ∧
      ∃ r : Replay, r.IsDue (-2) true ∧ m.before.queue.policy = .replay r ∧
        m.after.queue.policy = .replay r ∧ m.returnedGradient? = none ∧
        m.after.queue.stats.barrierBlocks = m.before.queue.stats.barrierBlocks + 1 := by
  intro s m
  have hs := Session.create_ofReplay ⟨[-1, -2], -1, 2⟩ rfl .boundary
  obtain ⟨schedule, r, r', group, blocks, released, -, -, hpolicy, hleft, -, hselects, hreturned,
    hblocks, -⟩ := dispatch_selects (s := s) hs rfl refusedRun
  set fc : Task := { name := "fc", key := 2, priority := -2, len := 8, payload := .gradient }
  have hbefore : m.before.queue.policy = .replay
      { Replay.start ⟨[-1, -2], -1, 2⟩ .boundary with
        pending := { ordered := true, tasks := [fc] }, tokens := [-2], boundarySeen := true,
        permits := 0, stagedTensors := 1 } := by
    decide +kernel
  have hr := Policy.replay.inj (hpolicy.symm.trans hbefore)
  have hdue : r.IsDue (-2) true := by
    rw [hr]
    exact .token rfl ⟨fc, by simp, rfl⟩
  have hrolled : r.rolled = r := by
    rw [hr]
    exact if_neg (by decide)
  rw [hrolled] at hselects
  refine ⟨hs, r, hdue, hpolicy, ?_⟩
  cases hselects with
  | front hstaged => simp [hr, Replay.start] at hstaged
  | nothingDue _ hnone => exact absurd hdue (hnone _ _)
  | refused => exact ⟨hleft, hreturned, hblocks⟩
  | passed _ _ hpasses => exact absurd (by simp [hr, Replay.isOpen]) hpasses

end TensorDispatch
