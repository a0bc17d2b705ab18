import Mathlib.Data.List.Flatten
import Mathlib.Data.List.Perm.Subperm
import TensorDispatch.Proofs.Replay.Trace

/-!
# Emission of a schedule

A replay sends the tensors of its schedule, in its order, pass after pass.

* `Group` — the partitions of one tensor that leave together, in ascending order;
* `Replay.Emission` — the invariant: which groups have been staged, how they make up what has left
  and what is staged, and which tokens they have used up;
* `replay_emits_schedule` — along every run, the staged groups that the schedule names are as many
  full copies of it as passes have been completed, and a prefix of it for the current one.

The invariant is kept by each part of a poll on its own (`Emission.rolled`, `Emission.refill`,
`Emission.released`). Doors play no part in it (`Emission.of_door`).
-/

namespace TensorDispatch

open scoped List

/-! ### Groups -/

/-- The partitions of a tensor that leave together, with the numbers of their submissions. -/
structure Group where
  priority : Int
  entries : List (Task × Nat)
  nonempty : entries ≠ []
  ofPriority : ∀ e ∈ entries, e.1.priority = priority
  /-- By key, and by submission among equal keys. -/
  ascending : entries.Pairwise fun e f => e.1.key < f.1.key ∨ e.1.key = f.1.key ∧ e.2 < f.2
  /-- The first partition tells how many there are at most. -/
  length_le : ∀ e ∈ entries.head?, entries.length ≤ max 1 e.1.partitions

namespace Group

/-- The partitions without their numbers. -/
def tasks (g : Group) : List Task := g.entries.map Prod.fst

/-- What leaves a numbered store as a group is one. -/
theorem exists_of_takeGroup {s : Pending} {entries : List (Task × Nat)} {priority : Int}
    (h : s.IsNumbering entries) (hordered : s.ordered = true)
    (hwaiting : s.hasPriority priority = true) :
    ∃ (g : Group) (rest : List (Task × Nat)), g.priority = priority ∧
      g.tasks = (s.takeGroup priority).1 ∧ (s.takeGroup priority).2.IsNumbering rest ∧
      entries ~ g.entries ++ rest := by
  obtain ⟨group, rest, hgroup, hrest, hperm, hsorted⟩ := h.takeGroup priority
  obtain ⟨t, ts, hcons, hlength⟩ := Pending.takeGroup_eq_cons hwaiting
  rw [hcons] at hgroup
  have hpriority : ∀ e ∈ group, e.1.priority = priority := by
    intro e he
    have hmem : e.1 ∈ (s.takeGroup priority).1 := by
      rw [hcons, ← hgroup]
      exact List.mem_map_of_mem he
    exact (Pending.mem_takeGroup hmem).2
  have hascending : group.Pairwise fun e f =>
      e.1.key < f.1.key ∨ e.1.key = f.1.key ∧ e.2 < f.2 := by
    rw [hordered] at hsorted
    -- within one priority, the order of the store is by key and then by number
    refine hsorted.imp_of_mem fun {e f} he hf hprecedes => ?_
    have he := hpriority e he
    have hf := hpriority f hf
    rw [Pending.precedes_ordered_iff] at hprecedes
    omega
  have hbound : ∀ e ∈ group.head?, group.length ≤ max 1 e.1.partitions := by
    intro e he
    have hhead : e.1 = t := by
      have := congrArg List.head? hgroup
      rw [List.head?_map, Option.mem_def.mp he] at this
      simpa using this
    rw [hhead, ← List.length_map Prod.fst, hgroup]
    exact hlength
  have hnonempty : group ≠ [] := by
    rintro rfl
    simp at hgroup
  exact ⟨⟨priority, group, hnonempty, hpriority, hascending, hbound⟩, rest, rfl,
    hgroup.trans hcons.symm, hrest, hperm⟩

end Group

/-- The priorities of the groups that a schedule names. -/
def Schedule.named (s : Schedule) (gs : List Group) : List Int :=
  (gs.map Group.priority).filter fun priority => decide (priority ∈ s.tokens)

@[simp] theorem Schedule.named_nil (s : Schedule) : s.named [] = [] := rfl

@[simp] theorem Schedule.named_append (s : Schedule) (gs gs' : List Group) :
    s.named (gs ++ gs') = s.named gs ++ s.named gs' := by
  simp [named]

theorem Schedule.named_singleton_of_mem {s : Schedule} {g : Group} (h : g.priority ∈ s.tokens) :
    s.named [g] = [g.priority] := by
  simp [named, h]

theorem Schedule.named_singleton_of_notMem {s : Schedule} {g : Group} (h : g.priority ∉ s.tokens) :
    s.named [g] = [] := by
  simp [named, h]

/-- Passes that each follow the whole schedule follow as many copies of it. -/
theorem Schedule.named_flatten {s : Schedule} {passes : List (List Group)}
    (h : ∀ pass ∈ passes, s.named pass = s.tokens) :
    s.named passes.flatten = (List.replicate passes.length s.tokens).flatten := by
  induction passes with
  | nil => rfl
  | cons pass passes ih =>
    have hpass := h pass List.mem_cons_self
    have hrest := ih fun p hp => h p (List.mem_cons_of_mem _ hp)
    simp [hpass, hrest, List.replicate_succ]

/-! ### The invariant -/

namespace Replay

/-- How a replay stands to what has been submitted, what has been returned and what it has staged,
with the submissions that still wait and the gradients that have left. -/
structure Emission (r : Replay) (submitted returned : List Task) (passes : Passes Group)
    (waiting : List (Task × Nat)) (taken : List Task) : Prop where
  ordered : r.pending.ordered = true
  numbering : r.pending.IsNumbering waiting
  /-- Every submission waits or is in a group. -/
  accounted : submitted.zipIdx ~ passes.all.flatMap Group.entries ++ waiting
  returned : returned = taken.map Task.released
  /-- What has left and what is staged are the groups, one behind the other. -/
  emitted : taken ++ r.staged = passes.all.flatMap Group.tasks
  completed : ∀ pass ∈ passes.completed,
    r.schedule.totalTensors ≤ pass.length ∧ r.schedule.named pass = r.schedule.tokens
  counted : passes.current.length = r.stagedTensors
  /-- The scheduled groups of this pass have used up the tokens that are gone. -/
  current : r.schedule.named passes.current ++ r.tokens = r.schedule.tokens

theorem Emission.start (schedule : Schedule) (door : Door) :
    (Replay.start schedule door).Emission [] [] {} [] [] where
  ordered := rfl
  numbering := ⟨rfl, .nil⟩
  accounted := .refl _
  returned := rfl
  emitted := rfl
  completed := by simp
  counted := rfl
  current := rfl

namespace Emission

variable {r r' : Replay} {submitted returned taken : List Task} {passes : Passes Group}
  {waiting : List (Task × Nat)}

/-- Doors play no part in the invariant. -/
theorem of_door (h : r.Emission submitted returned passes waiting taken) (seen : Bool)
    (permits : Nat) :
    { r with boundarySeen := seen, permits }.Emission submitted returned passes waiting taken :=
  ⟨h.ordered, h.numbering, h.accounted, h.returned, h.emitted, h.completed, h.counted, h.current⟩

/-- A new submission waits. -/
theorem submit (h : r.Emission submitted returned passes waiting taken) (t : Task) :
    ∃ waiting', (r.submit t).Emission (submitted ++ [t]) returned passes waiting' taken := by
  -- all earlier submissions have smaller numbers
  have hlate : ∀ e ∈ waiting, e.2 < submitted.length := by
    intro e he
    have hmem : e ∈ submitted.zipIdx := h.accounted.mem_iff.mpr (List.mem_append_right _ he)
    simpa using List.snd_lt_of_mem_zipIdx hmem
  obtain ⟨waiting', hnumbering, hperm⟩ := h.numbering.insert t hlate
  refine ⟨waiting', ?_, hnumbering, ?_, h.returned, h.emitted, h.completed, h.counted, h.current⟩
  · simpa [Replay.submit, Pending.insert] using h.ordered
  · calc (submitted ++ [t]).zipIdx
      _ = submitted.zipIdx ++ [(t, submitted.length)] := by simp [List.zipIdx_append]
      _ ~ (passes.all.flatMap Group.entries ++ waiting) ++ [(t, submitted.length)] :=
        h.accounted.append_right _
      _ ~ passes.all.flatMap Group.entries ++ ((t, submitted.length) :: waiting) := by
        rw [List.append_assoc]
        exact (List.perm_append_singleton _ _).append_left _
      _ ~ passes.all.flatMap Group.entries ++ waiting' := hperm.symm.append_left _

/-- A pass that rolls over is complete. -/
theorem rolled (h : r.Emission submitted returned passes waiting taken) :
    ∃ passes', r.rolled.Emission submitted returned passes' waiting taken ∧
      passes'.map Group.tasks =
        (if r.RollsOver then [ReplayEvent.rolledOver] else []).foldl Passes.follow
          (passes.map Group.tasks) := by
  by_cases hroll : r.RollsOver
  -- no token is left, so the pass that ends has named the whole schedule
  · have ⟨htotal, htokens, _, _⟩ := hroll
    have hcurrent : r.schedule.named passes.current = r.schedule.tokens := by
      simpa [htokens] using h.current
    refine ⟨passes.roll, ?_, by simp [hroll, Passes.follow]⟩
    rw [Replay.rolled, if_pos hroll]
    refine ⟨h.ordered, h.numbering, by simpa using h.accounted, h.returned, ?_, ?_, rfl, rfl⟩
    · rw [Passes.all_roll]
      exact h.emitted
    intro pass hpass
    rcases List.mem_append.mp hpass with hpass | hpass
    · exact h.completed pass hpass
    · rw [List.mem_singleton.mp hpass, h.counted]
      exact ⟨htotal, hcurrent⟩
  · exact ⟨passes, by simpa [Replay.rolled, hroll] using h, by simp [hroll]⟩

/-- A refill stages a group at most, the one of the front token or one outside the schedule. -/
theorem refill {group : Option (List Task)} (hrefill : Refill r group r')
    (h : r.Emission submitted returned passes waiting taken) :
    ∃ passes' waiting', r'.Emission submitted returned passes' waiting' taken ∧
      passes'.map Group.tasks =
        (group.toList.map ReplayEvent.staged).foldl Passes.follow (passes.map Group.tasks) := by
  cases hrefill with
  | kept => exact ⟨passes, waiting, h, rfl⟩
  | held => exact ⟨passes, waiting, h.of_door _ _, rfl⟩
  | @moved priority scheduled hempty hnext _ =>
    obtain ⟨g, rest, hpriority, htasks, hnumbering, hperm⟩ := Group.exists_of_takeGroup
      h.numbering h.ordered (hasPriority_of_candidate? hnext)
    -- a scheduled group consumes the front token, any other consumes none
    have htokens : r.schedule.named (passes.current ++ [g]) ++
        (if scheduled then r.tokens.tail else r.tokens) = r.schedule.tokens := by
      rw [Schedule.named_append]
      cases scheduled with
      | true =>
        obtain ⟨⟨later, hlater⟩, -⟩ := candidate?_eq_scheduled hnext
        have hcurrent := h.current
        rw [hlater] at hcurrent
        have hmem : g.priority ∈ r.schedule.tokens := by
          rw [hpriority, ← hcurrent]
          simp
        rw [Schedule.named_singleton_of_mem hmem, hpriority, if_pos rfl, hlater, List.tail_cons,
          List.append_assoc]
        exact hcurrent
      | false =>
        have hnotMem : g.priority ∉ r.schedule.tokens := by
          rw [hpriority]
          exact (candidate?_eq_unscheduled hnext).1
        rw [Schedule.named_singleton_of_notMem hnotMem, List.append_nil]
        exact h.current
    refine ⟨passes.stage g, rest, ⟨h.ordered, hnumbering, ?_, h.returned, ?_, h.completed, ?_,
      htokens⟩, by simp [Passes.follow, htasks]⟩
    · calc submitted.zipIdx
        _ ~ passes.all.flatMap Group.entries ++ waiting := h.accounted
        _ ~ passes.all.flatMap Group.entries ++ (g.entries ++ rest) := hperm.append_left _
        _ = (passes.stage g).all.flatMap Group.entries ++ rest := by simp
    · have hemitted := h.emitted
      rw [hempty, List.append_nil] at hemitted
      simp [stage, reach, hempty, hemitted, htasks]
    · simp [Passes.stage, h.counted, stage, reach]

/-- What leaves was at the front of what is staged. -/
theorem released (h : r.Emission submitted returned passes waiting taken) (admits : Task → Bool) :
    ∃ taken', (r.releaseStaged admits).2.Emission submitted
      (returned ++ ((r.releaseStaged admits).1.map Task.released).toList) passes waiting
      taken' := by
  cases hreleased : (r.releaseStaged admits).1 with
  | none =>
    rw [releaseStaged_eq_none hreleased]
    exact ⟨taken, by simpa using h⟩
  | some t =>
    obtain ⟨-, later, hstaged, heq⟩ := releaseStaged_eq_some hreleased
    rw [heq]
    refine ⟨taken ++ [t], h.ordered, h.numbering, h.accounted, by simp [h.returned], ?_,
      h.completed, h.counted, h.current⟩
    simpa [hstaged] using h.emitted

/-- A completion is at most a permit. -/
theorem afterCompletion (h : r.Emission submitted returned passes waiting taken) :
    r.completed.Emission submitted returned passes waiting taken := by
  unfold Replay.completed
  split
  · split
    · exact h.of_door _ _
    · exact h
  · exact h

/-- One action keeps the invariant. -/
theorem onReplay {m : Moment} {events : List ReplayEvent} (hm : m.OnReplay r events r')
    (h : r.Emission submitted returned passes waiting taken) :
    ∃ passes' waiting' taken',
      r'.Emission (submitted ++ m.submittedGradient?.toList)
        (returned ++ m.returnedGradient?.toList) passes' waiting' taken' ∧
      passes'.map Group.tasks = events.foldl Passes.follow (passes.map Group.tasks) := by
  cases hm with
  | @submitted t hsubmitted hreturned =>
    obtain ⟨waiting', h'⟩ := h.submit t
    exact ⟨passes, waiting', taken, by simpa [hsubmitted, hreturned] using h', rfl⟩
  | polled _ hsubmitted hreturned =>
    obtain ⟨rolled, hrolled, hrollEvents⟩ := h.rolled
    obtain ⟨refilled, waiting', hrefilled, hrefillEvents⟩ := hrolled.refill r.rolled.refill
    obtain ⟨taken', h'⟩ := hrefilled.released (m.before.queue.admits m.before.readiness)
    refine ⟨refilled, waiting', taken', by simpa [hsubmitted, hreturned, Moment.poll] using h', ?_⟩
    rw [hrefillEvents, hrollEvents, pollEvents, List.foldl_append]
  | completed _ hsubmitted hreturned =>
    exact ⟨passes, waiting, taken, by simpa [hsubmitted, hreturned] using h.afterCompletion, rfl⟩
  | other hsubmitted hreturned =>
    exact ⟨passes, waiting, taken, by simpa [hsubmitted, hreturned] using h, rfl⟩

end Emission

end Replay

/-! ### Runs -/

namespace Session

/-- The replay of a session keeps to the invariant along a history, and its iterations are the
completed passes. -/
def Emits (schedule : Schedule) (h : List Moment) (s : Session) : Prop :=
  ∃ r passes waiting taken, s.queue.Replays r ∧ r.schedule = schedule ∧
    r.Emission (h.filterMap Moment.submittedGradient?) (h.filterMap Moment.returnedGradient?)
      passes waiting taken ∧
    passes.map Group.tasks = Passes.ofTrace (h.flatMap Moment.events) ∧
    s.queue.stats.iterations = passes.completed.length

theorem emits_start {s : Session} {schedule : Schedule} {door : Door}
    (hreplays : s.queue.Replays (.start schedule door)) (hstats : s.queue.stats = {}) :
    Emits schedule [] s :=
  ⟨_, _, _, _, hreplays, rfl, .start schedule door, rfl, by rw [hstats]; rfl⟩

/-- One more moment keeps the invariant. -/
theorem Emits.act {schedule : Schedule} {h : List Moment} {m : Moment}
    (hbefore : Emits schedule h m.before) : Emits schedule (h ++ [m]) m.after := by
  obtain ⟨r, passes, waiting, taken, hreplays, hschedule, hemission, htrace, hiterations⟩ := hbefore
  obtain ⟨r', hreplays', hm, hcount⟩ := Moment.onReplay hreplays
  obtain ⟨passes', waiting', taken', hemission', hevents⟩ := hemission.onReplay hm
  refine ⟨r', passes', waiting', taken', hreplays', (congrArg Prod.fst hm.plan).trans hschedule,
    ?_, ?_, ?_⟩
  · rwa [Moment.filterMap_concat, Moment.filterMap_concat]
  · rw [hevents, htrace, List.flatMap_append, List.flatMap_singleton, Passes.ofTrace_append]
  · have hlength := congrArg (fun p => p.completed.length) hevents
    simp only [Passes.length_completed_map, Passes.length_completed_foldl] at hlength
    rw [hcount, hiterations, hlength]

end Session

/-- **Emission of the schedule.** Along every run, the gradients that have been returned and those
that are staged are a sequence of groups of submitted gradients. The groups that the schedule names
are the schedule once for each completed pass, and then the tokens that this pass has consumed; and
each completed pass has as many groups as the schedule asks for. -/
theorem replay_emits_schedule {config : QueueConfig} {role : Role} {s : Session}
    (hs : Queue.create .push config role = .ok s.queue)
    (hstrategy : config.strategy = .tokenReplay) (actions : List Action) :
    let submitted := (s.history actions).filterMap Moment.submittedGradient?
    let returned := (s.history actions).filterMap Moment.returnedGradient?
    let iterations := (s.after actions).queue.stats.iterations
    ∃ (schedule : Schedule) (r : Replay) (taken : List Task) (passes : Passes Group)
      (consumed : List Int),
      config.schedule = some schedule ∧ (s.after actions).queue.policy = .replay r ∧
      returned = taken.map Task.released ∧
      taken ++ r.staged = passes.all.flatMap Group.tasks ∧
      passes.all.flatMap Group.entries <+~ submitted.zipIdx ∧
      schedule.named passes.all =
        (List.replicate iterations schedule.tokens).flatten ++ consumed ∧
      consumed ++ r.tokens = schedule.tokens ∧
      passes.completed.length = iterations ∧
      (∀ pass ∈ passes.completed, schedule.totalTensors ≤ pass.length) ∧
      passes.map Group.tasks = Passes.ofTrace (s.trace actions) := by
  dsimp only
  obtain ⟨schedule, hschedule, -, hreplays⟩ := Queue.replays_create hs hstrategy
  have hstats : s.queue.stats = {} := by rw [(Queue.create_eq_ok hs).2.2]
  obtain ⟨r, passes, waiting, taken, hafter, rfl, hemission, htrace, hiterations⟩ :=
    Session.history_induction (Session.emits_start hreplays hstats) (fun _ _ => .act) actions
  refine ⟨r.schedule, r, taken, passes, r.schedule.named passes.current, hschedule, hafter.policy,
    hemission.returned, hemission.emitted, ?_, ?_, hemission.current, hiterations.symm,
    fun pass hpass => (hemission.completed pass hpass).1, htrace⟩
  · exact (List.sublist_append_left _ waiting).subperm.trans hemission.accounted.symm.subperm
  · have hcompleted := Schedule.named_flatten fun pass hpass => (hemission.completed pass hpass).2
    rw [Passes.all, Schedule.named_append, hcompleted, hiterations]

/-- A tensor outside the schedule fills in while a scheduled one is late, and the next pass begins
with a completion. -/
def fillerRun : List Action :=
  [.submit
      { name := "fc", key := 5, priority := -2, len := 8, partitions := 2, payload := .gradient },
    .submit
      { name := "fc", key := 4, priority := -2, len := 8, partitions := 2, payload := .gradient },
    .submit { name := "bias", key := 9, priority := -7, len := 1, payload := .gradient },
    .dispatch, .dispatch, .dispatch,
    .submit { name := "conv", key := 1, priority := -1, len := 16, payload := .gradient },
    .dispatch, .finish 16,
    .submit
      { name := "fc", key := 4, priority := -2, len := 8, partitions := 2, payload := .gradient },
    .dispatch]

/-- A fresh replay of two tensors with room for a third. -/
def fillerReplay : Session := .ofReplay ⟨[-2, -1], -1, 3⟩ .boundary

theorem replay_emits_schedule_fillerRun :
    Queue.create .push { strategy := .tokenReplay, schedule := some ⟨[-2, -1], -1, 3⟩ } {} =
        .ok fillerReplay.queue ∧
      ∃ (passes : Passes Group) (consumed : List Int),
        Schedule.named ⟨[-2, -1], -1, 3⟩ passes.all = [-2, -1] ++ consumed ∧
        passes.completed.length = 1 ∧
        (passes.map Group.tasks).all.map (fun group => group.map Task.key) =
          [[4, 5], [9], [1], [4]] := by
  have hs := Session.create_ofReplay ⟨[-2, -1], -1, 3⟩ rfl .boundary
  obtain ⟨schedule, r, taken, passes, consumed, hschedule, -, -, -, -, hnamed, -, hcompleted, -,
    htrace⟩ := replay_emits_schedule hs rfl fillerRun
  have hone : (fillerReplay.after fillerRun).queue.stats.iterations = 1 := by decide +kernel
  have hkeys : (Passes.ofTrace (fillerReplay.trace fillerRun)).all.map
      (fun group => group.map Task.key) = [[4, 5], [9], [1], [4]] := by decide +kernel
  cases hschedule
  refine ⟨hs, passes, consumed, ?_, hcompleted.trans hone, ?_⟩
  · rw [hnamed]
    exact congrArg (fun n => (List.replicate n [-2, -1]).flatten ++ consumed) hone
  · rw [htrace]
    exact hkeys

end TensorDispatch
