import TensorDispatch.Proofs.History
import TensorDispatch.Proofs.Queue.Operations

/-!
# Traces of a replay

What happens inside a replay while its callers submit, dispatch and report.

* `ReplayEvent`, `Session.trace` — the events of a run: passes that roll over, groups that are
  staged, and completions;
* `Session.exists_of_trace_eq`, `Moment.of_events_eq` — the moment that an event of a run is of, and
  the dispatch that a staged group is of;
* `Passes` — the staged groups, pass by pass (`Passes.ofTrace`);
* `Queue.Replays` — the queue replays a schedule: all its gradients are with the replay, and none
  is scanned for;
* `Moment.OnReplay` — what one action does to such a queue. `Moment.onReplay` is the one place
  that looks into the operations; invariants of replays are case analyses of it.
-/

namespace TensorDispatch

/-- An event inside a replay. -/
inductive ReplayEvent
  /-- A complete pass gives way to the next one. -/
  | rolledOver
  /-- A tensor moves into the staging buffer. -/
  | staged (group : List Task)
  /-- A completion is reported. -/
  | finished
  deriving DecidableEq, Repr

/-! ### Events -/

namespace Replay

/-- The events of a poll. -/
def pollEvents (r : Replay) : List ReplayEvent :=
  (if r.RollsOver then [.rolledOver] else []) ++ r.rolled.newGroup?.toList.map .staged

theorem rolledOver_mem_pollEvents {r : Replay} : .rolledOver ∈ r.pollEvents ↔ r.RollsOver := by
  by_cases h : r.RollsOver <;> simp [pollEvents, h]

theorem staged_mem_pollEvents {r : Replay} {group : List Task} :
    .staged group ∈ r.pollEvents ↔ r.rolled.newGroup? = some group := by
  by_cases h : r.RollsOver <;> simp [pollEvents, h]

theorem finished_notMem_pollEvents (r : Replay) : .finished ∉ r.pollEvents := by
  by_cases h : r.RollsOver <;> simp [pollEvents, h]

/-- The replay after a completion: behind the boundary, it grants a permit. -/
def completed (r : Replay) : Replay :=
  if r.boundarySeen then
    match r.grantPermit with
    | .ok permits => { r with permits }
    | .error _ => r
  else r

end Replay

/-- The events of an action. -/
def Moment.events (m : Moment) : List ReplayEvent :=
  match m.action, m.before.queue.policy with
  | .dispatch, .replay r => r.pollEvents
  | .finish _, _ => [.finished]
  | _, _ => []

/-- The events of a run. -/
def Session.trace (s : Session) (actions : List Action) : List ReplayEvent :=
  (s.history actions).flatMap Moment.events

namespace Session

@[simp] theorem trace_cons (a : Action) (actions : List Action) (s : Session) :
    s.trace (a :: actions) = Moment.events ⟨s, a⟩ ++ (s.act a).state.trace actions := rfl

theorem trace_append (as bs : List Action) (s : Session) :
    s.trace (as ++ bs) = s.trace as ++ (s.after as).trace bs := by
  simp [trace, history_append]

theorem trace_concat (actions : List Action) (a : Action) (s : Session) :
    s.trace (actions ++ [a]) = s.trace actions ++ Moment.events ⟨s.after actions, a⟩ := by
  simp [trace]

/-- Every event of a run is one of a moment. -/
theorem exists_of_trace_eq {s : Session} {actions : List Action} {es es' : List ReplayEvent}
    {e : ReplayEvent} (h : s.trace actions = es ++ e :: es') :
    ∃ earlier a later pre post, actions = earlier ++ a :: later ∧
      Moment.events ⟨s.after earlier, a⟩ = pre ++ e :: post ∧ es = s.trace earlier ++ pre := by
  induction actions generalizing s es with
  | nil => simp [trace] at h
  | cons a actions ih =>
    rw [trace_cons] at h
    rcases List.append_eq_append_iff.mp h with ⟨c, rfl, hlater⟩ | ⟨c, hevents, hlater⟩
    · obtain ⟨earlier, b, later, pre, post, rfl, hb, rfl⟩ := ih hlater
      exact ⟨a :: earlier, b, later, pre, post, rfl, hb, by simp⟩
    · cases c with
      | nil =>
        have hlater : (s.act a).state.trace actions = [] ++ e :: es' := hlater.symm
        obtain ⟨earlier, b, later, pre, post, rfl, hb, hnil⟩ := ih hlater
        refine ⟨a :: earlier, b, later, pre, post, rfl, hb, ?_⟩
        rw [trace_cons, hevents, List.append_nil, List.append_assoc, ← hnil, List.append_nil]
      | cons x c =>
        cases hlater
        exact ⟨[], a, actions, es, c, rfl, hevents, rfl⟩

end Session

/-- A group is staged by a dispatch, as its last event; before it, the pass may have rolled over. -/
theorem Moment.of_events_eq {m : Moment} {group : List Task} {pre post : List ReplayEvent}
    (h : m.events = pre ++ .staged group :: post) :
    m.action = .dispatch ∧ post = [] ∧ ∀ e ∈ pre, e = .rolledOver := by
  unfold events at h
  split at h
  · rename_i r haction hpolicy
    set rolls : List ReplayEvent := if r.RollsOver then [.rolledOver] else [] with hrolls
    have hall : ∀ e ∈ rolls, e = .rolledOver := by
      intro e he
      by_cases hroll : r.RollsOver
      · simpa [hrolls, hroll] using he
      · simp [hrolls, hroll] at he
    have hpoll : r.pollEvents = rolls ++ r.rolled.newGroup?.toList.map .staged := rfl
    rw [hpoll] at h
    cases hgroup : r.rolled.newGroup? with
    | none =>
      rw [hgroup, Option.toList_none, List.map_nil, List.append_nil] at h
      have hmem : ReplayEvent.staged group ∈ rolls := by simp [h]
      cases hall _ hmem
    | some new =>
      rw [hgroup, Option.toList_some, List.map_singleton] at h
      rcases List.eq_nil_or_concat post with rfl | ⟨post, last, rfl⟩
      · obtain ⟨rfl, -⟩ := List.append_inj' h rfl
        exact ⟨haction, rfl, hall⟩
      · rw [List.concat_eq_append, ← List.cons_append, ← List.append_assoc] at h
        obtain ⟨heq, -⟩ := List.append_inj' h rfl
        have hmem : ReplayEvent.staged group ∈ rolls := by simp [heq]
        cases hall _ hmem
  · rcases pre with _ | ⟨_, _ | ⟨_, _⟩⟩ <;> simp at h
  · simp at h

/-! ### Passes -/

/-- What a replay has staged, pass by pass. -/
structure Passes (α : Type) where
  completed : List (List α) := []
  current : List α := []

namespace Passes

variable {α β : Type}

/-- The current pass is complete, and the next one begins. -/
def roll (p : Passes α) : Passes α := { completed := p.completed ++ [p.current], current := [] }

/-- The current pass goes on. -/
def stage (g : α) (p : Passes α) : Passes α := { p with current := p.current ++ [g] }

/-- Everything in order. -/
def all (p : Passes α) : List α := p.completed.flatten ++ p.current

/-- The same passes with everything in them put differently. -/
def map (f : α → β) (p : Passes α) : Passes β where
  completed := p.completed.map fun pass => pass.map f
  current := p.current.map f

@[simp] theorem all_roll (p : Passes α) : p.roll.all = p.all := by simp [roll, all]

@[simp] theorem all_stage (g : α) (p : Passes α) : (p.stage g).all = p.all ++ [g] := by
  simp [stage, all]

@[simp] theorem map_roll (f : α → β) (p : Passes α) : p.roll.map f = (p.map f).roll := by
  simp [roll, map]

@[simp] theorem map_stage (f : α → β) (g : α) (p : Passes α) :
    (p.stage g).map f = (p.map f).stage (f g) := by
  simp [stage, map]

/-- The passes after one more event. -/
def follow (p : Passes (List Task)) : ReplayEvent → Passes (List Task)
  | .rolledOver => p.roll
  | .staged group => p.stage group
  | .finished => p

/-- The groups that a trace stages, pass by pass. -/
def ofTrace (es : List ReplayEvent) : Passes (List Task) := es.foldl follow {}

@[simp] theorem ofTrace_nil : ofTrace [] = {} := rfl

theorem ofTrace_append (es es' : List ReplayEvent) :
    ofTrace (es ++ es') = es'.foldl follow (ofTrace es) := List.foldl_append

@[simp] theorem length_completed_map (f : α → β) (p : Passes α) :
    (p.map f).completed.length = p.completed.length := by
  simp [map]

/-- A pass is completed by every rollover, and by nothing else. -/
theorem length_completed_foldl (es : List ReplayEvent) (p : Passes (List Task)) :
    (es.foldl follow p).completed.length =
      p.completed.length + (es.filter (· = .rolledOver)).length := by
  induction es generalizing p with
  | nil => rfl
  | cons e es ih =>
    rw [List.foldl_cons, ih]
    cases e with
    | rolledOver =>
      simp [follow, roll]
      omega
    | staged group => simp [follow, stage]
    | finished => simp [follow]

end Passes

/-! ### Queues that replay a schedule -/

@[simp] theorem Task.isGradient_released (t : Task) : t.released.isGradient = t.isGradient := rfl

theorem Replay.perm_submit (t : Task) (r : Replay) : (r.submit t).tasks.Perm (t :: r.tasks) :=
  List.Perm.append_right r.staged (r.pending.perm_insert t)

@[simp] theorem Replay.plan_completed (r : Replay) : r.completed.plan = r.plan := by
  unfold completed
  split
  · split <;> rfl
  · rfl

@[simp] theorem Replay.tasks_completed (r : Replay) : r.completed.tasks = r.tasks := by
  unfold completed
  split
  · split <;> rfl
  · rfl

/-- The queue replays a schedule with all its gradients. -/
structure Queue.Replays (q : Queue) (r : Replay) : Prop where
  policy : q.policy = .replay r
  gradients : ∀ t ∈ r.tasks, t.isGradient = true
  scanned : ∀ t ∈ q.scanned.tasks, t.isGradient = false

theorem Replay.iterations_statsAfterPoll (r : Replay) (stats : Stats) :
    (r.statsAfterPoll stats).iterations =
      stats.iterations + (r.pollEvents.filter (· = .rolledOver)).length := by
  have hgroup :
      (r.rolled.newGroup?.toList.map ReplayEvent.staged).filter (· = .rolledOver) = [] := by
    simp
  by_cases hroll : r.RollsOver <;> by_cases hheld : r.rolled.Holds <;>
    simp [statsAfterPoll, pollEvents, hroll, hheld, hgroup, Stats.countIteration, Stats.countBlock]

namespace Queue

variable {q : Queue} {r : Replay}

/-- A choice polls the replay. If the poll releases nothing, a scanned task may leave. -/
theorem choose_replay (h : q.policy = .replay r) (readiness : Readiness) (now : Int) :
    let released := r.rolled.refilled.releaseStaged (q.admits readiness)
    ∃ t q', q.choose readiness now = .answered t q' ∧ q'.policy = .replay released.2 ∧
      q'.stats = r.statsAfterPoll q.stats ∧
      (released.1 = t ∧ q'.scanned = q.scanned ∨
        released.1 = none ∧ q.scanned.tasks.Perm (t.toList ++ q'.scanned.tasks)) := by
  dsimp only
  simp only [choose, chooseGradient, h, Replay.poll_eq]
  cases hreleased : (r.rolled.refilled.releaseStaged (q.admits readiness)).1 with
  | some t => exact ⟨some t, _, rfl, rfl, rfl, .inl ⟨rfl, rfl⟩⟩
  | none =>
    set policy := Policy.replay (r.rolled.refilled.releaseStaged (q.admits readiness)).2
    set stats := r.statsAfterPoll q.stats
    obtain ⟨⟨scanned, hstate⟩, hperm, -⟩ := chooseScanned_spec readiness { q with policy, stats }
    refine ⟨_, _, rfl, ?_, ?_, .inr ⟨rfl, hperm⟩⟩
    · rw [hstate]
    · rw [hstate]

/-- A gradient waits with the replay, and any other task is scanned for. -/
theorem submit_replay (h : q.policy = .replay r) (now : Int) (t : Task) :
    (∃ f, q.submit now t = .refused f q) ∨
    ∃ q', q.submit now t = .answered () q' ∧ q'.stats.iterations = q.stats.iterations ∧
      (t.isGradient = true ∧ q'.policy = .replay (r.submit t) ∧ q'.scanned = q.scanned ∨
        t.isGradient = false ∧ q'.policy = .replay r ∧ q'.scanned = q.scanned.insert t) := by
  unfold submit
  split
  · exact .inl ⟨_, rfl⟩
  · cases hgradient : t.isGradient with
    | true =>
      have hplace : place now t { q with stats := q.stats.countSubmitted } =
          .answered ()
            { q with policy := .replay (r.submit t), stats := q.stats.countSubmitted } := by
        simp [place, hgradient, h]
      rw [hplace]
      exact .inr ⟨_, rfl, rfl, .inl ⟨rfl, rfl, rfl⟩⟩
    | false =>
      have hplace : place now t { q with stats := q.stats.countSubmitted } =
          .answered ()
            { q with scanned := q.scanned.insert t, stats := q.stats.countSubmitted } := by
        simp [place, hgradient]
      rw [hplace]
      exact .inr ⟨_, rfl, rfl, .inr ⟨rfl, h, rfl⟩⟩

/-- A completion reaches the replay. -/
theorem policy_finish_replay (h : q.policy = .replay r) (len : Nat) :
    (q.finish len).state.policy = .replay r.completed := by
  cases hseen : r.boundarySeen with
  | false => simp [finish, h, Replay.completed, hseen]
  | true =>
    cases hpermit : r.grantPermit with
    | ok permits => simp [finish, h, Replay.completed, hseen, hpermit]
    | error f => simp [finish, h, Replay.completed, hseen, hpermit]

theorem replays_ofSchedule (schedule : Schedule) (door : Door) (role : Role) :
    (ofSchedule schedule door role).Replays (.start schedule door) :=
  ⟨rfl, by simp [Replay.start, Replay.tasks], by simp [ofSchedule]⟩

/-- A push queue under token replay replays a valid schedule. -/
theorem replays_create {config : QueueConfig} {role : Role}
    (h : create .push config role = .ok q) (hstrategy : config.strategy = .tokenReplay) :
    ∃ schedule, config.schedule = some schedule ∧ schedule.validate = .ok () ∧
      q.Replays (.start schedule config.door) := by
  obtain ⟨schedule, hschedule, husable, rfl⟩ := eq_ofSchedule_of_create h hstrategy
  exact ⟨schedule, hschedule, husable, replays_ofSchedule schedule config.door role⟩

end Queue

/-! ### Actions on a replay -/

namespace Moment

/-- The gradient that enters the queue. -/
def submittedGradient? (m : Moment) : Option Task := m.submitted?.filter Task.isGradient

/-- The gradient that is handed over. -/
def returnedGradient? (m : Moment) : Option Task := m.returned?.filter Task.isGradient

/-- The replay after a poll, and the gradient it releases. -/
def poll (m : Moment) (r : Replay) : Option Task × Replay :=
  r.rolled.refilled.releaseStaged (m.before.queue.admits m.before.readiness)

/-- What an action can do to a queue that replays `r`: its events, and the replay it leaves. -/
inductive OnReplay (m : Moment) (r : Replay) : List ReplayEvent → Replay → Prop
  /-- A gradient joins the pending ones. -/
  | submitted {t : Task} (hsubmitted : m.submittedGradient? = some t)
      (hreturned : m.returnedGradient? = none) : OnReplay m r [] (r.submit t)
  /-- The replay is polled. -/
  | polled (haction : m.action = .dispatch) (hsubmitted : m.submittedGradient? = none)
      (hreturned : m.returnedGradient? = (m.poll r).1.map Task.released) :
      OnReplay m r r.pollEvents (m.poll r).2
  /-- Work is reported finished. -/
  | completed {len : Nat} (haction : m.action = .finish len)
      (hsubmitted : m.submittedGradient? = none) (hreturned : m.returnedGradient? = none) :
      OnReplay m r [.finished] r.completed
  /-- The replay is not concerned. -/
  | other (hsubmitted : m.submittedGradient? = none) (hreturned : m.returnedGradient? = none) :
      OnReplay m r [] r

/-- A submitted gradient joins the replay, and any other submission passes it by. -/
private theorem submit_onReplay {s : Session} {r : Replay} (h : s.queue.Replays r) (t : Task) :
    let m : Moment := ⟨s, .submit t⟩
    ∃ r', m.after.queue.Replays r' ∧ m.OnReplay r [] r' ∧
      m.after.queue.stats.iterations = s.queue.stats.iterations := by
  intro m
  have hreturned : m.returnedGradient? = none := by simp [m, returnedGradient?]
  rcases s.queue.submit_replay h.policy s.now t with
    ⟨f, hsubmit⟩ | ⟨q', hsubmit, hiterations, hcase⟩
  · have hqueue : m.after.queue = s.queue := by simp [m, hsubmit]
    have hsubmitted : m.submittedGradient? = none := by
      simp [m, submittedGradient?, submitted?, hsubmit, Except.map]
    rw [hqueue]
    exact ⟨r, h, .other hsubmitted hreturned, rfl⟩
  · have hqueue : m.after.queue = q' := by simp [m, hsubmit]
    have hsubmitted : m.submitted? = some t := by simp [m, submitted?, hsubmit, Except.map]
    rw [hqueue]
    rcases hcase with ⟨hgradient, hpolicy, hscanned⟩ | ⟨hcontrol, hpolicy, hscanned⟩
    · have hjoins : m.submittedGradient? = some t := by
        simp [submittedGradient?, hsubmitted, hgradient]
      refine ⟨r.submit t, ⟨hpolicy, ?_, hscanned ▸ h.scanned⟩, .submitted hjoins hreturned,
        hiterations⟩
      intro u hu
      rcases List.mem_cons.mp ((r.perm_submit t).mem_iff.mp hu) with rfl | hu
      · exact hgradient
      · exact h.gradients u hu
    · have hpasses : m.submittedGradient? = none := by
        simp [submittedGradient?, hsubmitted, hcontrol]
      refine ⟨r, ⟨hpolicy, h.gradients, ?_⟩, .other hpasses hreturned, hiterations⟩
      intro u hu
      rw [hscanned] at hu
      rcases List.mem_cons.mp ((s.queue.scanned.perm_insert t).mem_iff.mp hu) with rfl | hu
      · exact hcontrol
      · exact h.scanned u hu

/-- A dispatch polls the replay, and is always answered. -/
theorem dispatch_polls {s : Session} {r : Replay} (h : s.queue.Replays r) :
    let m : Moment := ⟨s, .dispatch⟩
    m.outcome.IsAnswered ∧ m.after.queue.Replays (m.poll r).2 ∧
      m.returnedGradient? = (m.poll r).1.map Task.released ∧
      m.after.queue.stats.iterations = (r.statsAfterPoll s.queue.stats).iterations ∧
      m.after.queue.stats.barrierBlocks = (r.statsAfterPoll s.queue.stats).barrierBlocks := by
  intro m
  obtain ⟨t, q, hchoose, hpolicy, hstats, hcase⟩ := Queue.choose_replay h.policy s.readiness s.now
  obtain ⟨s', hdispatch, hpolicy', hscanned', hiterations', -, hblocks'⟩ :=
    Session.dispatch_of_choose hchoose
  have hafter : m.after = s' := by simp [m, after, hdispatch]
  have hreturned : m.returned? = t.map Task.released := by simp [m, returned?, hdispatch]
  have hanswered : m.outcome.IsAnswered := by simp [m, hdispatch]
  have hperm := r.perm_poll (s.queue.admits s.readiness) s.queue.stats
  rw [Replay.poll_eq] at hperm
  have hcontrols : ∀ u ∈ s'.queue.scanned.tasks, u.isGradient = false := by
    intro u hu
    rw [hscanned'] at hu
    rcases hcase with ⟨-, hsame⟩ | ⟨-, hscan⟩
    · exact h.scanned u (hsame ▸ hu)
    · exact h.scanned u (hscan.mem_iff.mpr (List.mem_append_right _ hu))
  -- what the poll releases is a gradient, and what the scan finds in its place is none
  have hgradient : m.returnedGradient? = (m.poll r).1.map Task.released := by
    rw [returnedGradient?, hreturned, poll]
    rcases hcase with ⟨htaken, -⟩ | ⟨htaken, hscan⟩
    · rw [htaken]
      cases t with
      | none => rfl
      | some u =>
        have hu : u.isGradient = true := h.gradients u (hperm.mem_iff.mpr (by simp [htaken]))
        simpa using hu
    · rw [htaken]
      cases t with
      | none => rfl
      | some u =>
        have hu : u.isGradient = false := h.scanned u (hscan.mem_iff.mpr (by simp))
        simpa using hu
  rw [hafter]
  refine ⟨hanswered, ⟨hpolicy'.trans hpolicy, ?_, hcontrols⟩, hgradient, ?_, ?_⟩
  · exact fun u hu => h.gradients u (hperm.mem_iff.mpr (List.mem_append_right _ hu))
  · rw [hiterations', hstats]
  · rw [hblocks', hstats]

/-- Every action on a queue that replays a schedule is one of these, and the queue goes on
replaying it; its iterations are the passes that have rolled over. -/
theorem onReplay {m : Moment} {r : Replay} (h : m.before.queue.Replays r) :
    ∃ r', m.after.queue.Replays r' ∧ m.OnReplay r m.events r' ∧
      m.after.queue.stats.iterations =
        m.before.queue.stats.iterations + (m.events.filter (· = .rolledOver)).length := by
  obtain ⟨s, a⟩ := m
  have hpolicy : s.queue.policy = .replay r := h.policy
  cases a with
  | submit t => exact submit_onReplay h t
  | dispatch =>
    have hevents : events ⟨s, .dispatch⟩ = r.pollEvents := by simp [events, hpolicy]
    obtain ⟨-, hreplays, hreturned, hiterations, -⟩ := dispatch_polls h
    rw [hevents]
    exact ⟨_, hreplays, .polled rfl rfl hreturned,
      hiterations.trans (r.iterations_statsAfterPoll s.queue.stats)⟩
  | dispatchKey key =>
    obtain ⟨f, hrefused⟩ :=
      Session.dispatchKey_of_policy_ne_plain (s := s) (by simp [hpolicy]) key
    have hafter : after ⟨s, .dispatchKey key⟩ = s := by simp [after, hrefused]
    rw [hafter]
    exact ⟨r, h, .other rfl (by simp [returnedGradient?, returned?, hrefused]), rfl⟩
  | finish len =>
    obtain ⟨credit, policy, hstate, -, -⟩ := s.queue.finish_spec len
    have hscanned : (s.queue.finish len).state.scanned = s.queue.scanned := by rw [hstate]
    refine ⟨r.completed, ⟨Queue.policy_finish_replay hpolicy len, ?_, ?_⟩,
      .completed rfl rfl (by simp [returnedGradient?]), ?_⟩
    · rw [Replay.tasks_completed]
      exact h.gradients
    · rw [queue_after_finish, hscanned]
      exact h.scanned
    · rw [queue_after_finish, hstate]
      rfl
  | change c =>
    rw [queue_after_change]
    exact ⟨r, h, .other rfl rfl, rfl⟩

/-- No action changes what a replay follows. -/
theorem OnReplay.plan {m : Moment} {r r' : Replay} {events : List ReplayEvent}
    (h : m.OnReplay r events r') : r'.plan = r.plan := by
  cases h with
  | submitted => rfl
  | polled => simp [poll, (r.rolled.refill).plan]
  | completed => simp
  | other => rfl

end Moment

end TensorDispatch
