import TensorDispatch.Proofs.Replay.Emission

/-!
# Tensors in parts

The partitions of a tensor are submitted one by one, and a group is staged as soon as the first of
them is there.

* `Moment.OnReplay.staged`, `Moment.OnReplay.tokens_of_unstaged` — what a dispatch that stages a
  group does to the replay, and that nothing else consumes a token;
* `Replay.Emission.perm_submitted` — what has been submitted is in a group or pending;
* `Session.returned_eq_group` — what leaves from one group to the next;
* `group_takes_what_waits` — a group takes the partitions that are pending, up to the whole tensor.
  It leaves back to back, and what comes later waits for the next token of its tensor;
* `not_stagesWhole_splitRun` — so a token may be spent on a part of its tensor.
-/

namespace TensorDispatch

open scoped List
open Session (twoTensorReplay)

/-! ### Groups of a trace -/

/-- The group that an event stages. -/
def ReplayEvent.group? : ReplayEvent → Option (List Task)
  | .staged group => some group
  | _ => none

namespace Passes

variable {α β : Type}

@[simp] theorem all_map (f : α → β) (p : Passes α) : (p.map f).all = p.all.map f := by
  simp [map, all, List.map_flatten]

/-- A group is added by every event that stages one, and by no other. -/
theorem all_foldl (es : List ReplayEvent) (p : Passes (List Task)) :
    (es.foldl follow p).all = p.all ++ es.filterMap ReplayEvent.group? := by
  induction es generalizing p with
  | nil => simp
  | cons e es ih =>
    rw [List.foldl_cons, ih]
    cases e <;> simp [follow, List.filterMap_cons, ReplayEvent.group?]

/-- The groups of a trace, in order. -/
theorem all_ofTrace (es : List ReplayEvent) :
    (ofTrace es).all = es.filterMap ReplayEvent.group? := by
  rw [ofTrace, all_foldl]
  rfl

end Passes

/-! ### Tokens and groups -/

/-- The tokens that an action with these events meets: all of them where a pass begins. -/
def Replay.due (r : Replay) (events : List ReplayEvent) : List Int :=
  if .rolledOver ∈ events then r.schedule.tokens else r.tokens

theorem Replay.due_pollEvents (r : Replay) : r.due r.pollEvents = r.rolled.tokens := by
  by_cases hroll : r.RollsOver <;> simp [due, rolledOver_mem_pollEvents, rolled, nextPass, hroll]

namespace Moment.OnReplay

variable {m : Moment} {r r' : Replay} {events : List ReplayEvent}

/-- Without a group, no token is consumed. -/
theorem tokens_of_unstaged (hm : m.OnReplay r events r') (h : ∀ group, .staged group ∉ events) :
    r'.tokens = r.due events := by
  cases hm with
  | polled =>
    have hnone : r.rolled.newGroup? = none := Option.eq_none_iff_forall_ne_some.mpr
      fun group hgroup => h group (Replay.staged_mem_pollEvents.mpr hgroup)
    have hrefill := r.rolled.refill
    rw [hnone] at hrefill
    obtain ⟨later, hpoll⟩ :=
      r.rolled.refilled.exists_releaseStaged_eq (m.before.queue.admits m.before.readiness)
    rw [r.due_pollEvents, poll, hpoll]
    generalize r.rolled.refilled = refilled at hrefill
    cases hrefill <;> rfl
  | completed =>
    unfold Replay.completed
    split
    · split <;> rfl
    · rfl
  | _ => rfl

/-- A dispatch that stages a group finds nothing staged and takes the group of the tensor that comes
next; a token is consumed where the schedule names the tensor. -/
theorem staged (hm : m.OnReplay r events r') (htokens : r.tokens ⊆ r.schedule.tokens)
    {group : List Task} (h : .staged group ∈ events) :
    r.staged = [] ∧ ∃ priority, r.pending.hasPriority priority = true ∧
      group = (r.pending.takeGroup priority).1 ∧
      r'.pending = (r.pending.takeGroup priority).2 ∧
      if priority ∈ r.schedule.tokens then r.due events = priority :: r'.tokens
      else r'.tokens = r.due events := by
  cases hm with
  | polled =>
    have hschedule : r.rolled.schedule = r.schedule := congrArg Prod.fst r.plan_rolled
    have hrefill := r.rolled.refill
    rw [Replay.staged_mem_pollEvents.mp h] at hrefill
    obtain ⟨later, hpoll⟩ :=
      r.rolled.refilled.exists_releaseStaged_eq (m.before.queue.admits m.before.readiness)
    rw [r.due_pollEvents, poll, hpoll]
    generalize r.rolled.refilled = refilled at hrefill
    cases hrefill with
    | @moved priority scheduled hempty hnext =>
      refine ⟨r.staged_rolled ▸ hempty, priority, ?_, by rw [r.pending_rolled], ?_, ?_⟩
      · rw [← r.pending_rolled]
        exact Replay.hasPriority_of_candidate? hnext
      · simp [Replay.stage, Replay.reach]
      · cases scheduled with
        | true =>
          obtain ⟨⟨rest, hrest⟩, -⟩ := Replay.candidate?_eq_scheduled hnext
          have hnamed : priority ∈ r.schedule.tokens := by
            by_cases hroll : r.RollsOver <;>
              simp only [Replay.rolled, hroll, if_true, if_false, Replay.nextPass] at hrest
            · simp [hrest]
            · exact htokens (by simp [hrest])
          rw [if_pos hnamed]
          simp [Replay.stage, Replay.reach, hrest]
        | false =>
          have hfiller := (Replay.candidate?_eq_unscheduled hnext).1
          rw [if_neg (hschedule ▸ hfiller)]
          simp [Replay.stage, Replay.reach]
  | _ => simp at h

end Moment.OnReplay

/-! ### What has been submitted and what has left -/

namespace Replay.Emission

variable {r : Replay} {submitted returned taken : List Task} {passes : Passes Group}
  {waiting : List (Task × Nat)}

/-- What has been submitted is in a group or pending. -/
theorem perm_submitted (h : r.Emission submitted returned passes waiting taken) :
    submitted ~ (passes.map Group.tasks).all.flatten ++ r.pending.tasks := by
  have hperm := h.accounted.map Prod.fst
  rw [List.zipIdx_map_fst, List.map_append, h.numbering.tasks, List.map_flatMap] at hperm
  rw [Passes.all_map, ← List.flatMap_def]
  exact hperm

/-- With nothing staged, what has left are the groups. -/
theorem returned_of_staged_eq_nil (h : r.Emission submitted returned passes waiting taken)
    (hstaged : r.staged = []) :
    returned = (passes.map Group.tasks).all.flatten.map Task.released := by
  have hemitted := h.emitted
  rw [hstaged, List.append_nil] at hemitted
  rw [h.returned, hemitted, Passes.all_map, List.flatMap_def]

/-- The tokens that are left are of the schedule. -/
theorem tokens_subset (h : r.Emission submitted returned passes waiting taken) :
    r.tokens ⊆ r.schedule.tokens := by
  rw [← h.current]
  exact List.subset_append_right _ _

end Replay.Emission

/-! ### Runs -/

namespace Session

/-- All gradients of a run that have one priority tell the same number of partitions, at least
one. -/
def PartitionsAgree (s : Session) (partitions : Int → Nat) (actions : List Action) : Prop :=
  ∀ t ∈ (s.history actions).filterMap Moment.submittedGradient?,
    t.partitions = partitions t.priority ∧ 1 ≤ partitions t.priority

instance (s : Session) (partitions : Int → Nat) (actions : List Action) :
    Decidable (s.PartitionsAgree partitions actions) :=
  inferInstanceAs (Decidable (∀ t ∈ _, _))

/-- Tokens are spent on whole tensors: a group that the schedule names has all the partitions that
its tasks tell. -/
def StagesWhole (s : Session) (schedule : Schedule) (actions : List Action) : Prop :=
  ∀ earlier a group, earlier ++ [a] <+: actions →
    .staged group ∈ Moment.events ⟨s.after earlier, a⟩ →
    ∀ t ∈ group, t.priority ∈ schedule.tokens → group.length = t.partitions

section

variable {schedule : Schedule} {door : Door} {s : Session}

/-- Before a dispatch that stages a group, all groups so far have left. -/
theorem returned_of_staging (hreplays : s.queue.Replays (.start schedule door))
    (hstats : s.queue.stats = {}) {actions : List Action} {a : Action} {next : List Task}
    (hnext : .staged next ∈ Moment.events ⟨s.after actions, a⟩) :
    (s.history actions).filterMap Moment.returnedGradient? =
      ((s.trace actions).filterMap ReplayEvent.group?).flatten.map Task.released := by
  obtain ⟨r, _, _, _, hafter, -, hemission, htrace, -⟩ :=
    history_induction (emits_start hreplays hstats) (fun _ _ => .act) actions
  obtain ⟨_, -, honReplay, -⟩ := Moment.onReplay (m := ⟨s.after actions, a⟩) hafter
  obtain ⟨hstaged, -⟩ := honReplay.staged hemission.tokens_subset hnext
  rw [hemission.returned_of_staged_eq_nil hstaged, htrace, Passes.all_ofTrace]
  rfl

/-- From the dispatch that stages a group to the next one that does, this group leaves. -/
theorem returned_eq_group (hreplays : s.queue.Replays (.start schedule door))
    (hstats : s.queue.stats = {}) {earlier quiet : List Action} {a b : Action}
    {group next : List Task} (hgroup : .staged group ∈ Moment.events ⟨s.after earlier, a⟩)
    (hquiet : ∀ g, .staged g ∉ (s.after (earlier ++ [a])).trace quiet)
    (hnext : .staged next ∈ Moment.events ⟨s.after (earlier ++ a :: quiet), b⟩) :
    ((s.after earlier).history (a :: quiet)).filterMap Moment.returnedGradient? =
      group.map Task.released := by
  have hbefore := returned_of_staging hreplays hstats hgroup
  have hbehind := returned_of_staging hreplays hstats hnext
  -- the group is the only one of these actions
  have hgroups : ((s.after earlier).trace (a :: quiet)).filterMap ReplayEvent.group? = [group] := by
    obtain ⟨pre, post, hevents⟩ := List.append_of_mem hgroup
    obtain ⟨-, rfl, hrolls⟩ := Moment.of_events_eq hevents
    have hpre : pre.filterMap ReplayEvent.group? = [] :=
      List.filterMap_eq_nil_iff.mpr fun e he => by rw [hrolls e he]; rfl
    have hnone : ((s.after (earlier ++ [a])).trace quiet).filterMap ReplayEvent.group? = [] := by
      refine List.filterMap_eq_nil_iff.mpr fun e he => ?_
      cases e with
      | staged g => exact absurd he (hquiet g)
      | _ => rfl
    rw [after_concat] at hnone
    rw [trace_cons, hevents, List.filterMap_append, List.filterMap_append, hpre]
    exact congrArg (group :: ·) hnone
  rw [history_append, List.filterMap_append, trace_append, List.filterMap_append, hgroups,
    List.flatten_append, List.map_append, hbefore] at hbehind
  simpa using List.append_cancel_left hbehind

end

end Session

/-- **What a group takes.** Where the gradients of each priority agree on the number of partitions,
a group takes as many of them as are pending, up to this number: it is whole if and only if all the
partitions are there. The others stay pending. A token is consumed with a group of its tensor and
in no other way; and whatever the group is, it leaves back to back before the next one is staged. -/
theorem group_takes_what_waits {config : QueueConfig} {role : Role} {s : Session}
    (hs : Queue.create .push config role = .ok s.queue)
    (hstrategy : config.strategy = .tokenReplay) {partitions : Int → Nat} {actions : List Action}
    (hagree : s.PartitionsAgree partitions actions) {earlier later : List Action} {a : Action}
    (hactions : actions = earlier ++ a :: later) :
    let events := Moment.events ⟨s.after earlier, a⟩
    ∃ (schedule : Schedule) (r r' : Replay),
      config.schedule = some schedule ∧ (s.after earlier).queue.policy = .replay r ∧
      (s.after (earlier ++ [a])).queue.policy = .replay r' ∧
      (s.history earlier).filterMap Moment.submittedGradient? ~
        (Passes.ofTrace (s.trace earlier)).all.flatten ++ r.pending.tasks ∧
      ((∀ group, .staged group ∉ events) → r'.tokens = r.due events) ∧
      ∀ group, .staged group ∈ events →
        (∃ priority,
          (if priority ∈ schedule.tokens then r.due events = priority :: r'.tokens
            else r'.tokens = r.due events) ∧
          group ≠ [] ∧ group = (r.pending.ofPriority priority).take (partitions priority) ∧
          (group.length = partitions priority ↔
            partitions priority ≤ (r.pending.ofPriority priority).length) ∧
          r'.pending.ofPriority priority =
            (r.pending.ofPriority priority).drop (partitions priority)) ∧
        ∀ quiet b rest next, later = quiet ++ b :: rest →
          (∀ g, .staged g ∉ (s.after (earlier ++ [a])).trace quiet) →
          .staged next ∈ Moment.events ⟨s.after (earlier ++ a :: quiet), b⟩ →
          ((s.after earlier).history (a :: quiet)).filterMap Moment.returnedGradient? =
            group.map Task.released := by
  intro events
  obtain ⟨schedule, hschedule, -, hreplays⟩ := Queue.replays_create hs hstrategy
  have hstats : s.queue.stats = {} := by rw [(Queue.create_eq_ok hs).2.2]
  obtain ⟨r, passes, _, _, hbefore, rfl, hemission, htrace, -⟩ :=
    Session.history_induction (Session.emits_start hreplays hstats) (fun _ _ => .act) earlier
  obtain ⟨r', hafter, honReplay, -⟩ := Moment.onReplay (m := ⟨s.after earlier, a⟩) hbefore
  rw [← Session.after_concat] at hafter
  have hperm := hemission.perm_submitted
  refine ⟨r.schedule, r, r', hschedule, hbefore.policy, hafter.policy, htrace ▸ hperm,
    honReplay.tokens_of_unstaged, fun group hgroup => ⟨?_, fun quiet b rest next _ hquiet hnext =>
      Session.returned_eq_group hreplays hstats hgroup hquiet hnext⟩⟩
  obtain ⟨-, priority, hwaiting, rfl, hstays, htokens⟩ :=
    honReplay.staged hemission.tokens_subset hgroup
  -- what is pending has been submitted, so its priority tells the size of the group
  have hagrees : ∀ t ∈ r.pending.tasks, t.priority = priority →
      t.partitions = partitions priority ∧ 1 ≤ partitions priority := by
    rintro t ht rfl
    refine hagree t ?_
    have hmem := hperm.mem_iff.mpr (List.mem_append_right _ ht)
    rw [hactions, Session.history_append, List.filterMap_append]
    exact List.mem_append_left _ hmem
  obtain ⟨t, ht, hpriority⟩ := Pending.hasPriority_iff.mp hwaiting
  obtain ⟨htake, hdrop⟩ :=
    Pending.takeGroup_eq hwaiting (fun u hu h => (hagrees u hu h).1) (hagrees t ht hpriority).2
  rw [← hstays] at hdrop
  refine ⟨priority, htokens, ?_, htake, ?_, hdrop⟩
  · obtain ⟨u, us, hcons, -⟩ := Pending.takeGroup_eq_cons hwaiting
    simp [hcons]
  · rw [htake, List.length_take]
    omega

/-- Two partitions for one of the priorities, and one for any other. -/
def twoParts (priority : Int) : Nat := if priority = -2 then 2 else 1

theorem group_takes_what_waits_fillerRun :
    Queue.create .push { strategy := .tokenReplay, schedule := some ⟨[-2, -1], -1, 3⟩ } {} =
        .ok fillerReplay.queue ∧
      fillerReplay.PartitionsAgree twoParts fillerRun ∧
      ∃ group : List Task,
        .staged group ∈ Moment.events ⟨fillerReplay.after (fillerRun.take 3), .dispatch⟩ ∧
        group.map Task.key = [4, 5] ∧
        ((fillerReplay.after (fillerRun.take 3)).history [.dispatch, .dispatch]).filterMap
          Moment.returnedGradient? = group.map Task.released := by
  have hs := Session.create_ofReplay ⟨[-2, -1], -1, 3⟩ rfl .boundary
  have hagree : fillerReplay.PartitionsAgree twoParts fillerRun := by decide +kernel
  set fc : List Task :=
    [{ name := "fc", key := 4, priority := -2, len := 8, partitions := 2, payload := .gradient },
      { name := "fc", key := 5, priority := -2, len := 8, partitions := 2, payload := .gradient }]
  set bias : List Task :=
    [{ name := "bias", key := 9, priority := -7, len := 1, payload := .gradient }]
  have hgroup : .staged fc ∈
      Moment.events ⟨fillerReplay.after (fillerRun.take 3), .dispatch⟩ := by
    decide +kernel
  have hnext : .staged bias ∈ Moment.events
      ⟨fillerReplay.after (fillerRun.take 3 ++ [.dispatch, .dispatch]), .dispatch⟩ := by
    decide +kernel
  have hquiet : ∀ g,
      .staged g ∉ (fillerReplay.after (fillerRun.take 3 ++ [.dispatch])).trace [.dispatch] := by
    have hnone : (fillerReplay.after (fillerRun.take 3 ++ [.dispatch])).trace [.dispatch] = [] := by
      decide +kernel
    rw [hnone]
    exact fun g => List.not_mem_nil
  obtain ⟨_, _, _, -, -, -, -, -, hstaged⟩ := group_takes_what_waits hs rfl hagree
    (show fillerRun = fillerRun.take 3 ++ .dispatch :: fillerRun.drop 4 from rfl)
  have hleft := (hstaged fc hgroup).2
  exact ⟨hs, hagree, fc, hgroup, rfl,
    hleft [.dispatch] .dispatch (fillerRun.drop 6) bias rfl hquiet hnext⟩

/-- A dispatch falls between the two partitions of a tensor, and the second one waits for the next
pass. -/
def splitRun : List Action :=
  [.submit
      { name := "fc", key := 4, priority := -2, len := 8, partitions := 2, payload := .gradient },
    .dispatch,
    .submit
      { name := "fc", key := 5, priority := -2, len := 8, partitions := 2, payload := .gradient },
    .submit { name := "conv", key := 1, priority := -1, len := 16, payload := .gradient },
    .dispatch, .finish 16, .dispatch]

theorem not_stagesWhole_splitRun :
    Queue.create .push { strategy := .tokenReplay, schedule := some ⟨[-2, -1], -1, 2⟩ } {} =
        .ok twoTensorReplay.queue ∧
      twoTensorReplay.PartitionsAgree twoParts splitRun ∧
      (Passes.ofTrace (twoTensorReplay.trace splitRun)).all.map (fun group => group.map Task.key) =
        [[4], [1], [5]] ∧
      (twoTensorReplay.after splitRun).queue.stats.iterations = 1 ∧
      ¬ twoTensorReplay.StagesWhole ⟨[-2, -1], -1, 2⟩ splitRun := by
  have hs := Session.create_ofReplay ⟨[-2, -1], -1, 2⟩ rfl .boundary
  have hagree : twoTensorReplay.PartitionsAgree twoParts splitRun := by decide +kernel
  refine ⟨hs, hagree, by decide +kernel, by decide +kernel, fun hwhole => ?_⟩
  set fc : Task :=
    { name := "fc", key := 4, priority := -2, len := 8, partitions := 2, payload := .gradient }
  have hgroup : .staged [fc] ∈ Moment.events ⟨twoTensorReplay.after [.submit fc], .dispatch⟩ := by
    decide +kernel
  have hlength := hwhole [.submit fc] .dispatch [fc] ⟨splitRun.drop 2, rfl⟩ hgroup fc
    (List.mem_singleton_self fc) (by decide)
  cases hlength

end TensorDispatch
