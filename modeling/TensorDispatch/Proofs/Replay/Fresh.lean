import TensorDispatch.Proofs.Conservation
import TensorDispatch.Proofs.Credit
import TensorDispatch.Proofs.Queue.Counters
import TensorDispatch.Proofs.Queue.Frames
import TensorDispatch.Proofs.Replay.Emission

/-!
# Passes start afresh

A complete pass leaves nothing behind but its counters and the tasks that are still pending.

* `Session.bare_after_submit` — resubmitting tasks in store order rebuilds the stores;
* `Session.dispatch_inNextPass` — a dispatch that rolls over is a dispatch in the next pass;
* `Session.bare_inNextPass` — the next pass holds what a fresh queue would that is given its tasks;
* `iteration_starts_fresh` — a queue whose pass is complete does from its next dispatch on what a
  fresh queue does into which the tasks still pending are resubmitted.
-/

namespace TensorDispatch

open Session (twoTensorReplay)

/-! ### Resubmission -/

namespace Queue

variable {q : Queue} {r : Replay}

/-- The queue with these tasks to scan for, and with these gradients pending. -/
def holding (controls gradients : List Task) (r : Replay) (q : Queue) : Queue :=
  { q with
    scanned := { q.scanned with tasks := controls }
    policy := .replay { r with pending := { r.pending with tasks := gradients } } }

/-- A named task is accepted and counted, and else nothing but its store changes. -/
theorem submit_named_replay (h : q.policy = .replay r) (now : Int) {t : Task}
    (hname : t.name.isEmpty = false) :
    ∃ n, let stats := q.stats.countSubmitted.notePending n
      q.submit now t = .answered ()
        (if t.isGradient then { q with policy := .replay (r.submit t), stats }
          else { q with scanned := q.scanned.insert t, stats }) := by
  cases hgradient : t.isGradient with
  | true =>
    have hplace : place now t { q with stats := q.stats.countSubmitted } =
        .answered ()
          { q with policy := .replay (r.submit t), stats := q.stats.countSubmitted } := by
      simp [place, hgradient, h]
    simp only [submit, hname, hplace]
    exact ⟨_, rfl⟩
  | false =>
    have hplace : place now t { q with stats := q.stats.countSubmitted } =
        .answered () { q with scanned := q.scanned.insert t, stats := q.stats.countSubmitted } := by
      simp [place, hgradient]
    simp only [submit, hname, hplace]
    exact ⟨_, rfl⟩

end Queue

namespace Session

/-- What a queue accepts, its session accepts, and only the profiles are looked at besides. -/
theorem submit_of_answered {s : Session} {t : Task} {q : Queue}
    (h : s.queue.submit s.now t = .answered () q) :
    ∃ profiles, s.submit t = .answered () { s with queue := q, profiles } := by
  have hqueue : ∀ profiles,
      s.queue.submit (now { s with profiles }) t = .answered () q := fun _ => h
  simp only [submit, hqueue]
  exact ⟨_, rfl⟩

/-- Tasks that are resubmitted in store order are accepted, and rebuild the stores. -/
theorem bare_after_submit {s : Session} {r : Replay} (h : s.queue.policy = .replay r)
    (hscanned : s.queue.scanned.ordered = false) (hordered : r.pending.ordered = true)
    {tasks : List Task} (hnames : ∀ t ∈ tasks, t.name.isEmpty = false)
    (hsorted : (r.pending.tasks ++ tasks.filter Task.isGradient).Pairwise
      fun t u => ¬ u.Before t) :
    (∀ m ∈ s.history (tasks.map .submit), m.outcome.IsAnswered) ∧
      (s.after (tasks.map .submit)).bare =
        bare { s with
          queue := s.queue.holding
            (s.queue.scanned.tasks ++ tasks.filter fun t => !t.isGradient)
            (r.pending.tasks ++ tasks.filter Task.isGradient) r } := by
  induction tasks generalizing s r with
  | nil =>
    refine ⟨by simp, ?_⟩
    simp only [List.map_nil, after_nil, List.filter_nil, List.append_nil]
    rw [bare, bare, Queue.holding, ← h]
  | cons t tasks ih =>
    have hlater : ∀ u ∈ tasks, u.name.isEmpty = false :=
      fun u hu => hnames u (List.mem_cons_of_mem t hu)
    obtain ⟨n, hsubmit⟩ := Queue.submit_named_replay h s.now (hnames t List.mem_cons_self)
    generalize s.queue.stats.countSubmitted.notePending n = stats at hsubmit
    obtain ⟨profiles, hsubmit⟩ := submit_of_answered hsubmit
    have hact : s.act (.submit t) = .answered none _ :=
      congrArg (Outcome.map fun _ => (none : Option Task)) hsubmit
    have hfirst : (Moment.outcome ⟨s, .submit t⟩).IsAnswered := ⟨none, congrArg _ hact⟩
    simp only [List.map_cons, after_cons, history, List.forall_mem_cons, hact,
      Outcome.state_answered]
    cases hgradient : t.isGradient with
    | true =>
      -- no gradient in the store goes behind the new one, so it comes last
      have hsorted : ((r.pending.tasks ++ [t]) ++ tasks.filter Task.isGradient).Pairwise
          fun t u => ¬ u.Before t := by
        simpa [hgradient] using hsorted
      have hlast : (r.submit t).pending.tasks = r.pending.tasks ++ [t] := by
        have hbehind := (List.pairwise_append.mp (List.pairwise_append.mp hsorted).1).2.2
        simp only [Replay.submit, Pending.insert, hordered, if_true]
        exact Pending.place_of_not_before fun u hu => hbehind u hu t List.mem_cons_self
      obtain ⟨hrest, hbare⟩ := ih (s := { s with
          queue := { s.queue with policy := .replay (r.submit t), stats }
          profiles }) (r := r.submit t)
        rfl hscanned hordered hlater (by rw [hlast]; exact hsorted)
      rw [if_pos rfl]
      refine ⟨⟨hfirst, hrest⟩, hbare.trans ?_⟩
      simp [hlast, Queue.holding, hgradient]
      rfl
    | false =>
      have hlast : (s.queue.scanned.insert t).tasks = s.queue.scanned.tasks ++ [t] := by
        simp [Pending.insert, hscanned]
      obtain ⟨hrest, hbare⟩ := ih (s := { s with
          queue := { s.queue with scanned := s.queue.scanned.insert t, stats }
          profiles }) h hscanned hordered hlater (by simpa [hgradient] using hsorted)
      rw [if_neg (by simp)]
      refine ⟨⟨hfirst, hrest⟩, hbare.trans ?_⟩
      simp [hlast, Queue.holding, hgradient]
      rfl

end Session

/-! ### What a queue can have inside -/

/-- A task without a name is never accepted. -/
theorem Moment.name_of_submitted? {m : Moment} {t : Task} (h : m.submitted? = some t) :
    t.name.isEmpty = false := by
  obtain ⟨s, a⟩ := m
  cases a with
  | submit u =>
    cases hname : u.name.isEmpty with
    | true =>
      have hrefused : s.queue.submit s.now u = .refused (.unnamedTask u.key) s.queue := by
        simp [Queue.submit, hname]
      simp [submitted?, hrefused, Except.map] at h
    | false =>
      cases hresult : (s.queue.submit s.now u).result with
      | error f => simp [submitted?, hresult, Except.map] at h
      | ok _ =>
        have heq : u = t := by simpa [submitted?, hresult, Except.map] using h
        exact heq ▸ hname
  | _ => simp [submitted?] at h

/-- A task inside a queue that replays a schedule was inside it before, or has been submitted. -/
theorem Moment.mem_tasks_of_mem_after {m : Moment} {r : Replay} (h : m.before.queue.Replays r)
    {t : Task} (ht : t ∈ m.after.queue.tasks) :
    t ∈ m.before.queue.tasks ∨ m.submitted? = some t := by
  by_cases hanswered : m.outcome.IsAnswered
  · obtain ⟨taken, -, hbalance⟩ := m.balance hanswered
    have hmem := hbalance.tasks.mem_iff.mpr (List.mem_append_left taken ht)
    rcases List.mem_append.mp hmem with hmem | hmem
    · exact .inr (Option.mem_toList.mp hmem)
    · exact .inl hmem
  -- a refused action leaves the tasks where they are
  · refine .inl ?_
    obtain ⟨s, a⟩ := m
    have hpolicy : s.queue.policy = .replay r := h.policy
    cases a with
    | submit u =>
      rcases s.queue.submit_replay hpolicy s.now u with ⟨f, hsubmit⟩ | ⟨q', hsubmit, -⟩
      · simpa [hsubmit] using ht
      · exact absurd ((Outcome.isAnswered_map _ _).mpr ⟨(), congrArg _ hsubmit⟩) hanswered
    | dispatch =>
      obtain ⟨u, q', hchoose, -⟩ := Queue.choose_replay hpolicy s.readiness s.now
      obtain ⟨s', hdispatch, -⟩ := Session.dispatch_of_choose hchoose
      exact absurd ⟨_, congrArg _ hdispatch⟩ hanswered
    | dispatchKey key =>
      obtain ⟨f, hrefused⟩ :=
        Session.dispatchKey_of_policy_ne_plain (s := s) (by simp [hpolicy]) key
      simpa [after, hrefused] using ht
    | finish len =>
      obtain ⟨credit, policy, hstate, hpending, hstaged⟩ := s.queue.finish_spec len
      rw [queue_after_finish, hstate] at ht
      simpa [Queue.tasks, Policy.tasks, hpending, hstaged] using ht
    | change c => exact absurd ⟨none, rfl⟩ hanswered

namespace Replay

variable {r r' : Replay}

theorem Refill.permits_le {group : Option (List Task)} (h : Refill r group r')
    (hdoor : r.door = .boundary) (hpermits : r.permits ≤ 1) : r'.permits ≤ 1 := by
  cases h with
  | kept => exact hpermits
  | held => exact hpermits
  | moved =>
    simp only [stage, permitsAfterTensor, reach, hdoor]
    split
    · exact Nat.zero_le 1
    · exact hpermits

/-- A boundary door never banks more than one permit. -/
theorem permits_le_of_onReplay {m : Moment} {events : List ReplayEvent}
    (hm : m.OnReplay r events r') (hdoor : r.door = .boundary) (hpermits : r.permits ≤ 1) :
    r'.permits ≤ 1 := by
  cases hm with
  | submitted => exact hpermits
  | polled =>
    have hrolled : r.rolled.door = .boundary ∧ r.rolled.permits ≤ 1 := by
      by_cases hroll : r.RollsOver <;> simp [rolled, hroll, nextPass, hdoor, hpermits]
    have hrefilled := r.rolled.refill.permits_le hrolled.1 hrolled.2
    obtain ⟨later, heq⟩ :=
      r.rolled.refilled.exists_releaseStaged_eq (m.before.queue.admits m.before.readiness)
    rw [Moment.poll, heq]
    exact hrefilled
  | completed =>
    unfold completed grantPermit
    rw [hdoor]
    split
    · exact Nat.le_refl 1
    · exact hpermits
  | other => exact hpermits

end Replay

namespace Session

/-- What the session of a boundary door can carry from one pass to the next. -/
def Carries (schedule : Schedule) (s : Session) : Prop :=
  ∃ r, s.queue.Replays r ∧ r.plan = (schedule, .boundary) ∧ r.permits ≤ 1 ∧
    ∀ t ∈ s.queue.tasks, t.name.isEmpty = false

theorem Carries.act {schedule : Schedule} {m : Moment} (h : Carries schedule m.before) :
    Carries schedule m.after := by
  obtain ⟨r, hreplays, hplan, hpermits, hnames⟩ := h
  obtain ⟨r', hreplays', hm, -⟩ := Moment.onReplay hreplays
  refine ⟨r', hreplays', hm.plan.trans hplan,
    Replay.permits_le_of_onReplay hm (congrArg Prod.snd hplan) hpermits, ?_⟩
  intro t ht
  rcases Moment.mem_tasks_of_mem_after hreplays ht with ht | ht
  · exact hnames t ht
  · exact Moment.name_of_submitted? ht

end Session

/-! ### Rollovers -/

/-- A choice that rolls over is a choice of the next pass. -/
theorem Queue.choose_nextPass {q : Queue} {r : Replay} (h : q.policy = .replay r)
    (hroll : r.RollsOver) (hnext : ¬ r.nextPass.RollsOver) (readiness : Readiness) (now : Int) :
    q.choose readiness now =
      choose readiness now
        { q with policy := .replay r.nextPass, stats := q.stats.countIteration } := by
  have hrolled : r.rolled = r.nextPass := if_pos hroll
  have hrolled' : r.nextPass.rolled = r.nextPass := if_neg hnext
  have hstats : r.statsAfterPoll q.stats =
      r.nextPass.statsAfterPoll q.stats.countIteration := by
    simp [Replay.statsAfterPoll, hroll, hnext, hrolled, hrolled']
  simp only [choose, chooseGradient, h, Replay.poll_eq, hrolled, hrolled', hstats]
  rfl

/-- The session in its next pass. -/
def Session.inNextPass (r : Replay) (s : Session) : Session :=
  { s with
    queue :=
      { s.queue with policy := .replay r.nextPass, stats := s.queue.stats.countIteration } }

/-- A dispatch that rolls over is a dispatch in the next pass. -/
theorem Session.dispatch_inNextPass {s : Session} {r : Replay} (h : s.queue.policy = .replay r)
    (hroll : r.RollsOver) (hnext : ¬ r.nextPass.RollsOver) :
    s.dispatch = (s.inNextPass r).dispatch := by
  have hchoose := Queue.choose_nextPass h hroll hnext s.readiness s.now
  simp only [dispatch, hchoose]
  rfl

/-- From a dispatch that rolls over on, a session is seen to be in its next pass. -/
theorem Session.views_inNextPass {s : Session} {r : Replay} (h : s.queue.policy = .replay r)
    (hroll : r.RollsOver) (hnext : ¬ r.nextPass.RollsOver) (later : List Action) :
    s.views (.dispatch :: later) = (s.inNextPass r).views (.dispatch :: later) := by
  have hdispatch : s.act .dispatch = (s.inNextPass r).act .dispatch :=
    dispatch_inNextPass h hroll hnext
  simp only [views, history, List.map_cons, Moment.view, Moment.after, Moment.outcome, hdispatch]

/-! ### The next pass -/

/-- A complete pass behind a boundary door gives way to what a fresh replay starts with, apart from
what is pending. -/
theorem Replay.nextPass_eq_start {r : Replay} {schedule : Schedule} {door : Door}
    (hroll : r.RollsOver) (hplan : r.plan = (schedule, door)) (hpermits : r.permits ≤ 1) :
    r.nextPass = { Replay.start schedule door with pending := r.pending } := by
  obtain ⟨-, -, hstaged, hopen⟩ := hroll
  have hone : r.permits = 1 := by omega
  have hschedule : r.schedule = schedule := congrArg Prod.fst hplan
  have hdoor : r.door = door := congrArg Prod.snd hplan
  simp only [nextPass, start, hstaged, hone, hschedule, hdoor]

/-- In its next pass, a queue holds what a fresh one would that is given its tasks. -/
theorem Session.bare_inNextPass {s : Session} {r : Replay} {schedule : Schedule} {door : Door}
    {role : Role} (hsetup : s.queue.setup = (Queue.ofSchedule schedule door role).setup)
    (hcredit : s.queue.credit = .unmetered) (hordered : r.pending.ordered = true)
    (hnext : r.nextPass = { Replay.start schedule door with pending := r.pending }) :
    (s.inNextPass r).bare = bare { s with
      queue := (Queue.ofSchedule schedule door role).holding s.queue.scanned.tasks
        r.pending.tasks (.start schedule door) } := by
  simp only [Queue.setup, Prod.mk.injEq] at hsetup
  obtain ⟨hstage, hstrategy, hgated, hscanned⟩ := hsetup
  have hscans : Pending.mk (Queue.ofSchedule schedule door role).scanned.ordered
      s.queue.scanned.tasks = s.queue.scanned := by
    rw [← hscanned]
  have hwaits : Pending.mk true r.pending.tasks = r.pending := by
    rw [← hordered]
  have hqueue : (s.inNextPass r).queue.uncounted =
      ((Queue.ofSchedule schedule door role).holding s.queue.scanned.tasks r.pending.tasks
        (.start schedule door)).uncounted := by
    simp only [inNextPass, Queue.uncounted, Queue.holding, hnext, hscans, Replay.start, hwaits,
      hcredit, Queue.mk.injEq, and_true, true_and]
    exact ⟨hstage, hstrategy, hgated, rfl⟩
  simp only [bare, hqueue]
  rfl

/-- **Passes start afresh.** When a pass behind a boundary door is complete, the queue answers from
its next dispatch on as a fresh queue of the same configuration, beside the same surroundings, into
which the tasks still pending are resubmitted in store order. It shows the same of itself, too, its
counters aside. -/
theorem iteration_starts_fresh {config : QueueConfig} {role : Role} {s : Session}
    (hs : Queue.create .push config role = .ok s.queue)
    (hstrategy : config.strategy = .tokenReplay) (hdoor : config.door = .boundary)
    (earlier : List Action) {r : Replay} (hr : (s.after earlier).queue.policy = .replay r)
    (hroll : r.RollsOver) {tasks : List Task}
    (hgradients : tasks.filter Task.isGradient = r.pending.tasks)
    (hcontrols : (tasks.filter fun t => !t.isGradient) = (s.after earlier).queue.scanned.tasks)
    (later : List Action) :
    let now := s.after earlier
    let fresh : Session := { now with queue := s.queue }
    let refilled := fresh.after (tasks.map .submit)
    (∀ m ∈ fresh.history (tasks.map .submit), m.outcome.IsAnswered) ∧
      now.views (.dispatch :: later) = refilled.views (.dispatch :: later) := by
  intro now fresh refilled
  obtain ⟨schedule, -, husable, hqueue⟩ := Queue.eq_ofSchedule_of_create hs hstrategy
  rw [hdoor] at hqueue
  have htokens : schedule.tokens ≠ [] := (Schedule.validate_eq_ok_iff.mp husable).1
  have hreplays : s.queue.Replays (.start schedule .boundary) :=
    hqueue ▸ Queue.replays_ofSchedule schedule .boundary role
  -- what the queue carries into the next pass
  obtain ⟨r₁, hreplays₁, hplan, hpermits, hnames⟩ :=
    Session.history_induction (I := fun _ s => s.Carries schedule)
      ⟨_, hreplays, rfl, Nat.le_refl 1, by simp [Queue.tasks_create hs]⟩ (fun _ _ => .act) earlier
  cases hreplays₁.policy.symm.trans hr
  obtain ⟨r₂, _, _, _, hreplays₂, -, hemission, -⟩ :=
    Session.history_induction (Session.emits_start hreplays (by rw [hqueue]; rfl))
      (fun _ _ => .act) earlier
  cases hreplays₂.policy.symm.trans hr
  have hresubmitted : ∀ t ∈ tasks, t.name.isEmpty = false := by
    intro t ht
    refine hnames t (List.mem_append.mpr ?_)
    cases hgradient : t.isGradient with
    | true =>
      have hmem : t ∈ r.pending.tasks := hgradients ▸ List.mem_filter.mpr ⟨ht, hgradient⟩
      exact .inr (by simp [Policy.tasks, Policy.pendingTasks, hr, hmem])
    | false => exact .inl (hcontrols ▸ List.mem_filter.mpr ⟨ht, by simp [hgradient]⟩)
  obtain ⟨haccepted, hrefilled⟩ := Session.bare_after_submit (s := fresh)
    hreplays.policy (congrArg (·.scanned.ordered) hqueue) rfl hresubmitted
    (by simpa [Replay.start, hgradients] using hemission.numbering.not_before hemission.ordered)
  refine ⟨haccepted, ?_⟩
  have hnext := Replay.nextPass_eq_start hroll hplan hpermits
  have hunfinished : ¬ r.nextPass.RollsOver := by
    rw [hnext]
    exact fun h => htokens h.2.1
  -- the next pass and the refilled queue differ in their records alone
  have hbare : (now.inNextPass r).bare = refilled.bare := by
    have hsetup := (s.setup_after earlier).trans (congrArg Queue.setup hqueue)
    have hcredit := Session.unmetered_after (congrArg Queue.credit hqueue) earlier
    rw [Session.bare_inNextPass hsetup hcredit hemission.ordered hnext, hrefilled, hgradients,
      hcontrols, hqueue]
    rfl
  calc now.views (.dispatch :: later)
    _ = (now.inNextPass r).views (.dispatch :: later) :=
      Session.views_inNextPass hr hroll hunfinished later
    _ = refilled.views (.dispatch :: later) := Session.views_eq_of_bare_eq hbare _

/-- The gradients of the next iteration, and a task that is scanned for between them. -/
def nextTasks : List Task :=
  [{ name := "conv", key := 1, priority := -1, len := 16, payload := .gradient },
    { name := "sync", key := 7, priority := 0, len := 1, payload := .control },
    { name := "fc", key := 2, priority := -2, len := 8, payload := .gradient }]

/-- Both tensors of a pass leave, and the tasks of the next one arrive before it rolls over. -/
def completedRun : List Action :=
  [.submit { name := "fc", key := 2, priority := -2, len := 8, payload := .gradient },
    .submit { name := "conv", key := 1, priority := -1, len := 16, payload := .gradient },
    .dispatch, .dispatch, .finish 16] ++ nextTasks.reverse.map .submit

/-- The replay of the completed pass. -/
def completedReplay : Replay :=
  { Replay.start ⟨[-2, -1], -1, 2⟩ .boundary with
    pending := { ordered := true, tasks := nextTasks.filter Task.isGradient }
    tokens := []
    boundarySeen := true
    stagedTensors := 2 }

theorem iteration_starts_fresh_completedRun :
    let now := twoTensorReplay.after completedRun
    let fresh : Session := { now with queue := twoTensorReplay.queue }
    let later : List Action := [.dispatch, .finish 8, .dispatch, .dispatch]
    Queue.create .push { strategy := .tokenReplay, schedule := some ⟨[-2, -1], -1, 2⟩ } {} =
        .ok twoTensorReplay.queue ∧
      now.queue.policy = .replay completedReplay ∧ completedReplay.RollsOver ∧
      nextTasks.filter Task.isGradient = completedReplay.pending.tasks ∧
      (nextTasks.filter fun t => !t.isGradient) = now.queue.scanned.tasks ∧
      now.views (.dispatch :: later) =
        (fresh.after (nextTasks.map .submit)).views (.dispatch :: later) := by
  intro now fresh later
  have hs := Session.create_ofReplay ⟨[-2, -1], -1, 2⟩ rfl .boundary
  have hpolicy : now.queue.policy = .replay completedReplay := by decide +kernel
  have hcontrols : (nextTasks.filter fun t => !t.isGradient) = now.queue.scanned.tasks := by
    decide +kernel
  obtain ⟨-, hviews⟩ :=
    iteration_starts_fresh hs rfl rfl completedRun hpolicy (by decide) rfl hcontrols later
  exact ⟨hs, hpolicy, by decide, rfl, hcontrols, hviews⟩

end TensorDispatch
