import TensorDispatch.Proofs.Replay.Door
import TensorDispatch.Proofs.Replay.Emission

/-!
# Which completion opens the door

The door behind the boundary tensor opens with a completion, and a completion does not say of which
task it is.

* `Passes.exists_staged`, `Session.exists_boundary_group` — where in a run a group is staged;
* `Moment.OnReplay.staging`, `Session.returned_of_trace_eq_nil` — until the next group is staged,
  the gradients that leave are of the last one;
* `Session.ReportsAs` — the reports of a run with the numbers of the tasks they are for;
* `iteration_waits_for_report` — the first report behind the boundary group comes before the next
  iteration begins. It is for a task of that group, for one that was in flight when the group was
  staged, or for a control;
* `not_holdsForBoundary_overtakenRun` — so the next iteration may begin while the whole boundary
  tensor is in flight.
-/

namespace TensorDispatch

open Session (twoTensorReplay)

/-! ### Where a group is staged -/

/-- A group of a pass was staged when as many passes were complete as come before its own. -/
theorem Passes.exists_staged (es : List ReplayEvent) :
    (∀ group ∈ (ofTrace es).current, ∃ before behind, es = before ++ .staged group :: behind ∧
      (ofTrace before).completed.length = (ofTrace es).completed.length) ∧
    ∀ (k : Nat) (pass : List (List Task)), (ofTrace es).completed[k]? = some pass →
      ∀ group ∈ pass, ∃ before behind, es = before ++ .staged group :: behind ∧
        (ofTrace before).completed.length = k := by
  induction es using List.reverseRecOn with
  | nil => simp
  | append_singleton es e ih =>
    obtain ⟨hcurrent, hcompleted⟩ := ih
    have hfollow : ofTrace (es ++ [e]) = (ofTrace es).follow e := by simp [ofTrace_append]
    -- what was staged before the last event still is
    have hgrow : ∀ {group : List Task} {k : Nat},
        (∃ before behind, es = before ++ .staged group :: behind ∧
          (ofTrace before).completed.length = k) →
        ∃ before behind, es ++ [e] = before ++ .staged group :: behind ∧
          (ofTrace before).completed.length = k := by
      rintro group k ⟨before, behind, heq, hk⟩
      exact ⟨before, behind ++ [e], by simp [heq], hk⟩
    rw [hfollow]
    cases e with
    | rolledOver =>
      refine ⟨by simp [follow, roll], fun k pass hpass group hgroup => ?_⟩
      rcases Nat.lt_or_ge k (ofTrace es).completed.length with hk | hk
      · simp only [follow, roll, List.getElem?_append_left hk] at hpass
        exact hgrow (hcompleted k pass hpass group hgroup)
      · simp only [follow, roll, List.getElem?_append_right hk, List.getElem?_singleton] at hpass
        split at hpass
        · cases hpass
          obtain ⟨before, behind, heq, hlength⟩ := hcurrent group hgroup
          exact hgrow ⟨before, behind, heq, by omega⟩
        · cases hpass
    | staged new =>
      refine ⟨fun group hgroup => ?_, fun k pass hpass group hgroup => ?_⟩
      · rcases List.mem_append.mp hgroup with hgroup | hgroup
        · exact hgrow (hcurrent group hgroup)
        · rw [List.mem_singleton.mp hgroup]
          exact ⟨es, [], rfl, rfl⟩
      · exact hgrow (hcompleted k pass hpass group hgroup)
    | finished =>
      exact ⟨fun group hgroup => hgrow (hcurrent group hgroup),
        fun k pass hpass group hgroup => hgrow (hcompleted k pass hpass group hgroup)⟩

/-! ### Between two groups -/

namespace Replay

theorem Refill.staged_eq {r r' : Replay} {group : Option (List Task)} (h : Refill r group r') :
    r'.staged = group.getD r.staged := by
  cases h with
  | kept => rfl
  | held => rfl
  | @moved priority scheduled hempty _ _ => simp [stage, reach, hempty]

/-- What is released was staged, and so is what stays. -/
theorem mem_of_releaseStaged (admits : Task → Bool) (r : Replay) :
    (∀ t ∈ (r.releaseStaged admits).1, t ∈ r.staged) ∧
      ∀ t ∈ (r.releaseStaged admits).2.staged, t ∈ r.staged := by
  cases h : (r.releaseStaged admits).1 with
  | none => simp [releaseStaged_eq_none h]
  | some u =>
    obtain ⟨-, later, hstaged, heq⟩ := releaseStaged_eq_some h
    simp only [heq, hstaged, Option.mem_some_iff, List.mem_cons]
    exact ⟨fun t ht => .inl ht.symm, fun t ht => .inr ht⟩

end Replay

namespace Moment

variable {m : Moment} {r r' : Replay} {events : List ReplayEvent}

/-- The gradient that leaves in a poll is staged behind its refill, and so are those that stay. -/
private theorem mem_staged_of_poll (m : Moment) (r : Replay) :
    (∀ t ∈ (m.poll r).1.map Task.released,
      t ∈ (r.rolled.newGroup?.getD r.staged).map Task.released) ∧
      ∀ t ∈ (m.poll r).2.staged, t ∈ r.rolled.newGroup?.getD r.staged := by
  have hstaged := r.rolled.refill.staged_eq
  rw [r.staged_rolled] at hstaged
  rw [← hstaged]
  obtain ⟨hleft, hstays⟩ :=
    r.rolled.refilled.mem_of_releaseStaged (m.before.queue.admits m.before.readiness)
  refine ⟨fun t ht => ?_, hstays⟩
  obtain ⟨u, hu, rfl⟩ := Option.map_eq_some_iff.mp ht
  exact List.mem_map_of_mem (hleft u hu)

/-- Where no group is staged, what leaves was staged before, and so was what stays. -/
theorem OnReplay.unstaged (hm : m.OnReplay r events r') (h : ∀ group, .staged group ∉ events) :
    (∀ t ∈ m.returnedGradient?, t ∈ r.staged.map Task.released) ∧
      ∀ t ∈ r'.staged, t ∈ r.staged := by
  cases hm with
  | submitted _ hreturned => exact ⟨by simp [hreturned], fun _ ht => ht⟩
  | polled _ _ hreturned =>
    have hnone : r.rolled.newGroup? = none := Option.eq_none_iff_forall_ne_some.mpr
      fun group hgroup => h group (Replay.staged_mem_pollEvents.mpr hgroup)
    have hpoll := m.mem_staged_of_poll r
    rw [hnone, Option.getD_none] at hpoll
    exact ⟨hreturned ▸ hpoll.1, hpoll.2⟩
  | completed _ _ hreturned =>
    have hstaged : r.completed.staged = r.staged := by
      unfold Replay.completed
      split
      · split <;> rfl
      · rfl
    exact ⟨by simp [hreturned], fun t ht => hstaged ▸ ht⟩
  | other _ hreturned => exact ⟨by simp [hreturned], fun _ ht => ht⟩

/-- Where a group is staged, what leaves is of this group, and so is what stays. -/
theorem OnReplay.staging (hm : m.OnReplay r events r') {group : List Task}
    (h : .staged group ∈ events) :
    (∀ t ∈ m.returnedGradient?, t ∈ group.map Task.released) ∧ ∀ t ∈ r'.staged, t ∈ group := by
  cases hm with
  | polled _ _ hreturned =>
    have hpoll := m.mem_staged_of_poll r
    rw [Replay.staged_mem_pollEvents.mp h, Option.getD_some] at hpoll
    exact ⟨hreturned ▸ hpoll.1, hpoll.2⟩
  | _ => simp at h

end Moment

namespace Session

variable {s : Session} {r : Replay}

/-- As long as no further group is staged, the gradients that leave are staged now. -/
theorem returned_of_trace_eq_nil (hreplays : s.queue.Replays r) {actions : List Action}
    (htrace : s.trace actions = []) {m : Moment} (hm : m ∈ s.history actions) {t : Task}
    (ht : t ∈ m.returnedGradient?) : t ∈ r.staged.map Task.released := by
  induction actions generalizing s r with
  | nil => simp at hm
  | cons a actions ih =>
    obtain ⟨hevents, hlater⟩ := List.append_eq_nil_iff.mp htrace
    obtain ⟨r', hreplays', honReplay, -⟩ := Moment.onReplay (m := ⟨s, a⟩) hreplays
    obtain ⟨hleft, hstays⟩ := honReplay.unstaged (by simp [hevents])
    rcases List.mem_cons.mp hm with rfl | hm
    · exact hleft t ht
    · obtain ⟨u, hu, rfl⟩ := List.mem_map.mp (ih hreplays' hlater hm)
      exact List.mem_map_of_mem (hstays u hu)

end Session

/-! ### Behind the boundary -/

/-- Whether an action reports finished work. -/
def Action.isReport : Action → Bool
  | .finish _ => true
  | _ => false

/-- A completion is reported by a report alone. -/
theorem Moment.isReport_of_finished_mem {m : Moment} (h : .finished ∈ m.events) :
    m.action.isReport = true := by
  unfold events at h
  split at h
  · exact absurd h (Replay.finished_notMem_pollEvents _)
  · rename_i haction
    rw [haction]
    rfl
  · simp at h

namespace Session

variable {s : Session} {schedule : Schedule}

/-- Behind a group at the boundary, nothing happens before the next report. -/
theorem trace_eq_nil_of_quiet (hreplays : s.queue.Replays (.start schedule .boundary))
    (hscheduled : schedule.boundary ∈ schedule.tokens) {before quiet : List Action}
    {pre : List ReplayEvent} {group : List Task}
    (hgroup : Moment.events ⟨s.after before, .dispatch⟩ = pre ++ [.staged group])
    (hboundary : ∃ t ∈ group, t.priority = schedule.boundary)
    (hquiet : ∀ b ∈ quiet, b.isReport = false) :
    (s.after (before ++ [.dispatch])).trace quiet = [] := by
  induction quiet using List.reverseRecOn with
  | nil => rfl
  | append_singleton quiet b ih =>
    have hnone := ih fun c hc => hquiet c (List.mem_append_left _ hc)
    have hb : b.isReport = false := hquiet b (by simp)
    -- so far the group is the last event, and a completion is awaited
    have htrace : s.trace (before ++ [.dispatch] ++ quiet) =
        (s.trace before ++ pre) ++ [.staged group] := by
      rw [trace_append, hnone, trace_append, trace_cons, hgroup]
      simp [trace]
    have hawaits : AwaitsCompletion schedule.boundary
        (s.trace (before ++ [.dispatch] ++ quiet)) := by
      refine ⟨s.trace before ++ pre, group, [], htrace, ?_, by simp⟩
      exact pastBoundary_staged_iff.mpr (.inr hboundary)
    set now := s.after (before ++ [.dispatch] ++ quiet) with hnow
    obtain ⟨r, hafter, hplan, hguarded⟩ := guards_after hreplays hscheduled
      (before ++ [.dispatch] ++ quiet)
    rw [← hplan] at hawaits
    have hrolls : .rolledOver ∉ Moment.events ⟨now, b⟩ := by
      intro hroll
      have hopen := (Moment.rollsOver_of_mem_events hafter.policy hroll).2.2.2
      exact absurd (hguarded.shut hawaits) (Nat.pos_iff_ne_zero.mp hopen)
    have hstages : ∀ next, .staged next ∉ Moment.events ⟨now, b⟩ := by
      intro next hnext
      obtain ⟨pre', post, hevents⟩ := List.append_of_mem hnext
      obtain ⟨-, rfl, hpre⟩ := Moment.of_events_eq hevents
      have hnil : pre' = [] := by
        refine List.eq_nil_iff_forall_not_mem.mpr fun e he => hrolls ?_
        rw [hevents, ← hpre e he]
        exact List.mem_append_left _ he
      obtain ⟨r', -, hplan', hguarded'⟩ := guards_after hreplays hscheduled
        (before ++ [.dispatch] ++ quiet ++ [b])
      rw [hplan, ← hplan'] at hawaits
      refine hguarded'.safe _ next ?_ hawaits
      have hmore : s.trace (before ++ [.dispatch] ++ quiet ++ [b]) =
          s.trace (before ++ [.dispatch] ++ quiet) ++ [.staged next] := by
        rw [trace_concat, ← hnow, hevents, hnil]
        rfl
      exact ⟨[], by rw [List.append_nil]; exact hmore.symm⟩
    have hevents : Moment.events ⟨now, b⟩ = [] := by
      refine List.eq_nil_iff_forall_not_mem.mpr fun e he => ?_
      cases e with
      | rolledOver => exact hrolls he
      | staged next => exact hstages next he
      | finished =>
        have hreport : b.isReport = true := Moment.isReport_of_finished_mem he
        rw [hb] at hreport
        cases hreport
    rw [trace_concat, hnone, ← after_append, ← hnow, hevents]
    rfl

/-- The iterations of a run are the passes it has completed. -/
theorem iterations_after (hreplays : s.queue.Replays (.start schedule .boundary))
    (hstats : s.queue.stats = {}) (actions : List Action) :
    (s.after actions).queue.stats.iterations =
      (Passes.ofTrace (s.trace actions)).completed.length := by
  obtain ⟨-, passes, -, -, -, -, -, htrace, hiterations⟩ :=
    history_induction (emits_start hreplays hstats) (fun _ _ => .act) actions
  rw [hiterations, ← Passes.length_completed_map Group.tasks, htrace]
  rfl

/-- Nothing happens in a run without events, so no pass rolls over. -/
theorem iterations_eq_of_trace_eq_nil (hreplays : s.queue.Replays (.start schedule .boundary))
    (hstats : s.queue.stats = {}) {actions quiet : List Action}
    (htrace : (s.after actions).trace quiet = []) :
    (s.after (actions ++ quiet)).queue.stats.iterations =
      (s.after actions).queue.stats.iterations := by
  rw [iterations_after hreplays hstats, iterations_after hreplays hstats, trace_append, htrace,
    List.append_nil]

/-- Behind a group at the boundary and before the next report, the gradients that leave are of this
group, and they leave in its pass. -/
theorem returned_of_quiet (hreplays : s.queue.Replays (.start schedule .boundary))
    (hstats : s.queue.stats = {}) (hscheduled : schedule.boundary ∈ schedule.tokens)
    {before quiet : List Action} {pre : List ReplayEvent} {group : List Task}
    (hgroup : Moment.events ⟨s.after before, .dispatch⟩ = pre ++ [.staged group])
    (hboundary : ∃ t ∈ group, t.priority = schedule.boundary)
    (hquiet : ∀ b ∈ quiet, b.isReport = false) {m : Moment}
    (hm : m ∈ (s.after before).history (.dispatch :: quiet)) {t : Task}
    (ht : t ∈ m.returnedGradient?) :
    t ∈ group.map Task.released ∧ m.after.queue.stats.iterations =
      (s.after (before ++ [.dispatch])).queue.stats.iterations := by
  obtain ⟨r, hbefore, -, -⟩ := guards_after hreplays hscheduled before
  obtain ⟨r', hafter, honReplay, -⟩ := Moment.onReplay (m := ⟨s.after before, .dispatch⟩) hbefore
  have hmem : .staged group ∈ Moment.events ⟨s.after before, .dispatch⟩ := by simp [hgroup]
  obtain ⟨hleft, hstays⟩ := honReplay.staging hmem
  rcases List.mem_cons.mp hm with rfl | hm
  · exact ⟨hleft t ht, by rw [after_concat]⟩
  · have hnow : s.after (before ++ [.dispatch]) = Moment.after ⟨s.after before, .dispatch⟩ :=
      after_concat before .dispatch s
    have hm : m ∈ (s.after (before ++ [.dispatch])).history quiet := by rwa [hnow]
    have htrace := trace_eq_nil_of_quiet hreplays hscheduled hgroup hboundary hquiet
    constructor
    · obtain ⟨u, hu, rfl⟩ := List.mem_map.mp (returned_of_trace_eq_nil (hnow ▸ hafter) htrace hm ht)
      exact List.mem_map_of_mem (hstays u hu)
    · obtain ⟨sofar, hinitial, hsofar⟩ := exists_after_of_mem_history hm
      have hnone := trace_eq_nil_of_quiet hreplays hscheduled hgroup hboundary
        fun b hb => hquiet b (hinitial.mem hb)
      rw [← iterations_eq_of_trace_eq_nil hreplays hstats hnone, after_append, after_concat, hsofar]

/-- Every pass that has been completed has a dispatch that stages its boundary group. -/
theorem exists_boundary_group (hreplays : s.queue.Replays (.start schedule .boundary))
    (hstats : s.queue.stats = {}) (hscheduled : schedule.boundary ∈ schedule.tokens)
    {actions : List Action} {k : Nat} (hk : k < (s.after actions).queue.stats.iterations) :
    ∃ (before later : List Action) (pre : List ReplayEvent) (group : List Task),
      actions = before ++ .dispatch :: later ∧
      Moment.events ⟨s.after before, .dispatch⟩ = pre ++ [.staged group] ∧
      group ≠ [] ∧ (∀ t ∈ group, t.priority = schedule.boundary) ∧
      (s.after (before ++ [.dispatch])).queue.stats.iterations = k := by
  obtain ⟨r, passes, _, _, _, rfl, hemission, htrace, hiterations⟩ :=
    history_induction (emits_start hreplays hstats) (fun _ _ => .act) actions
  -- the complete pass has named the boundary, so it has a group there
  obtain ⟨pass, hpass⟩ : ∃ pass, passes.completed[k]? = some pass :=
    ⟨_, List.getElem?_eq_getElem (hiterations ▸ hk)⟩
  rw [← (hemission.completed pass (List.mem_of_getElem? hpass)).2] at hscheduled
  obtain ⟨g, hg, hpriority⟩ := List.mem_map.mp (List.mem_of_mem_filter hscheduled)
  have hcompleted : (Passes.ofTrace (s.trace actions)).completed[k]? =
      some (pass.map Group.tasks) := by
    rw [trace, ← htrace, Passes.map, List.getElem?_map, hpass, Option.map_some]
  obtain ⟨es, es', hes, hlength⟩ :=
    (Passes.exists_staged _).2 k _ hcompleted g.tasks (List.mem_map_of_mem hg)
  obtain ⟨before, b, later, pre, post, hactions, hevents, rfl⟩ := exists_of_trace_eq hes
  obtain ⟨hb, rfl, -⟩ := Moment.of_events_eq hevents
  obtain rfl : b = .dispatch := hb
  refine ⟨before, later, pre, g.tasks, hactions, hevents, ?_, ?_, ?_⟩
  · simpa [Group.tasks] using g.nonempty
  · intro t ht
    obtain ⟨e, he, rfl⟩ := List.mem_map.mp ht
    exact (g.ofPriority e he).trans hpriority
  · rw [iterations_after hreplays hstats, trace_concat, hevents, ← List.append_assoc,
      Passes.ofTrace_append, Passes.length_completed_foldl, hlength]
    rfl

/-- Where a new pass has begun, the boundary group of the one before was staged earlier on, and
something has been reported since. -/
theorem exists_report_of_staged (hreplays : s.queue.Replays (.start schedule .boundary))
    (hstats : s.queue.stats = {}) (hscheduled : schedule.boundary ∈ schedule.tokens)
    {earlier : List Action} {a : Action} {next : List Task}
    (hnext : .staged next ∈ Moment.events ⟨s.after earlier, a⟩) {k : Nat}
    (hk : (Moment.after ⟨s.after earlier, a⟩).queue.stats.iterations = k + 1) :
    ∃ (before quiet rest : List Action) (len : Nat) (pre : List ReplayEvent) (group : List Task),
      earlier = before ++ .dispatch :: (quiet ++ .finish len :: rest) ∧
      (∀ b ∈ quiet, b.isReport = false) ∧
      Moment.events ⟨s.after before, .dispatch⟩ = pre ++ [.staged group] ∧
      group ≠ [] ∧ (∀ t ∈ group, t.priority = schedule.boundary) ∧
      (s.after (before ++ [.dispatch])).queue.stats.iterations = k := by
  rw [← after_concat] at hk
  have hover : k < (s.after (earlier ++ [a])).queue.stats.iterations := by omega
  obtain ⟨before, later, pre, group, hactions, hgroup, hnonempty, hpriority, hpass⟩ :=
    exists_boundary_group hreplays hstats hscheduled hover
  rcases List.eq_nil_or_concat later with rfl | ⟨later, last, rfl⟩
  -- the boundary group itself does not begin a pass
  · rw [hactions, hpass] at hk
    omega
  rw [List.concat_eq_append, ← List.cons_append, ← List.append_assoc] at hactions
  obtain ⟨rfl, hlast⟩ := List.append_inj' hactions rfl
  cases hlast
  cases hreport : later.find? Action.isReport with
  | none =>
    have hquiet : ∀ b ∈ later, b.isReport = false := by simpa using hreport
    have hdispatch : a.isReport = false := by
      obtain ⟨pre', post, hevents⟩ := List.append_of_mem hnext
      rw [show a = .dispatch from (Moment.of_events_eq hevents).1]
      rfl
    obtain ⟨t, ht⟩ := List.exists_mem_of_ne_nil group hnonempty
    have hquiet : ∀ b ∈ later ++ [a], b.isReport = false := by
      simpa [or_imp, forall_and, hdispatch] using hquiet
    have htrace := trace_eq_nil_of_quiet hreplays hscheduled hgroup ⟨t, ht, hpriority t ht⟩ hquiet
    rw [trace_concat, ← after_append, List.append_assoc, List.singleton_append] at htrace
    simp [(List.append_eq_nil_iff.mp htrace).2] at hnext
  | some b =>
    obtain ⟨hb, quiet, rest, rfl, hquiet⟩ := List.find?_eq_some_iff_append.mp hreport
    cases b with
    | finish len =>
      exact ⟨before, quiet, rest, len, pre, group, rfl, by simpa using hquiet, hgroup, hnonempty,
        hpriority, hpass⟩
    | _ => cases hb

end Session

/-! ### Reports and their tasks -/

namespace Session

/-- The tasks that leave in a run, each with the number of the iteration it leaves in. -/
def departures (s : Session) (actions : List Action) : List (Task × Nat) :=
  (s.history actions).filterMap fun m =>
    m.returned?.map fun t => (t, m.after.queue.stats.iterations)

/-- Each report of a run is for a task that has left and is for no other: the reports are, in
order, for the departures of these numbers. -/
structure ReportsAs (s : Session) (actions : List Action) (numbers : List Nat) : Prop where
  nodup : numbers.Nodup
  handedOver : ∀ earlier len, earlier ++ [.finish len] <+: actions →
    ∃ n t i, numbers[earlier.countP Action.isReport]? = some n ∧
      (s.departures earlier)[n]? = some (t, i) ∧ t.len = len

/-- The next iteration waits for the boundary: it stages no group before one of the boundary
gradients of the iteration before it has been reported. -/
def HoldsForBoundary (s : Session) (boundary : Int) (actions : List Action) (numbers : List Nat) :
    Prop :=
  ∀ earlier a group k, earlier ++ [a] <+: actions →
    .staged group ∈ Moment.events ⟨s.after earlier, a⟩ →
    (Moment.after ⟨s.after earlier, a⟩).queue.stats.iterations = k + 1 →
    ∃ n ∈ numbers.take (earlier.countP Action.isReport), ∃ t : Task,
      (s.departures earlier)[n]? = some (t, k) ∧ t.isGradient = true ∧ t.priority = boundary

theorem departures_append (as bs : List Action) (s : Session) :
    s.departures (as ++ bs) = s.departures as ++ (s.after as).departures bs := by
  simp [departures, history_append]

/-- The only report of a run is for a task that has left before. -/
theorem reportsAs_singleton {s : Session} {before behind : List Action} {len n i : Nat} {t : Task}
    (hbefore : ∀ b ∈ before, b.isReport = false) (hbehind : ∀ b ∈ behind, b.isReport = false)
    (hleft : (s.departures before)[n]? = some (t, i)) (hlen : t.len = len) :
    s.ReportsAs (before ++ .finish len :: behind) [n] := by
  refine ⟨List.pairwise_singleton _ n, ?_⟩
  rintro earlier len' ⟨later, heq⟩
  rw [List.append_assoc, List.singleton_append] at heq
  obtain ⟨rfl, rfl⟩ : earlier = before ∧ len' = len := by
    rcases List.append_eq_append_iff.mp heq with ⟨c, rfl, hc⟩ | ⟨c, rfl, hc⟩
    · cases c with
      | nil =>
        cases hc
        exact ⟨(List.append_nil _).symm, rfl⟩
      | cons b c =>
        cases hc
        simpa [Action.isReport] using hbefore (.finish len') (by simp)
    · cases c with
      | nil =>
        cases hc
        exact ⟨List.append_nil _, rfl⟩
      | cons b c =>
        cases hc
        simpa [Action.isReport] using hbehind (.finish len') (by simp)
  have hcount : earlier.countP Action.isReport = 0 := by simpa using hbefore
  exact ⟨n, t, i, by rw [hcount]; rfl, hleft, hlen⟩

end Session

/-- **What the next iteration waits for.** Once an iteration is over, the next one stages a group
only after a report behind the boundary group of the first. The first such report is for a gradient
of this group, or for one that had left before the group was staged and was still in flight, or for
a task that is no gradient. -/
theorem iteration_waits_for_report {config : QueueConfig} {role : Role} {s : Session}
    (hs : Queue.create .push config role = .ok s.queue)
    (hstrategy : config.strategy = .tokenReplay) (hdoor : config.door = .boundary)
    {actions : List Action} {numbers : List Nat} (hreports : s.ReportsAs actions numbers)
    {earlier : List Action} {a : Action} (hinitial : earlier ++ [a] <+: actions)
    {next : List Task} (hnext : .staged next ∈ Moment.events ⟨s.after earlier, a⟩) {k : Nat}
    (hk : (Moment.after ⟨s.after earlier, a⟩).queue.stats.iterations = k + 1) :
    ∃ (schedule : Schedule) (before quiet rest : List Action) (group : List Task)
      (len n : Nat) (t : Task) (i : Nat),
      config.schedule = some schedule ∧
      earlier = before ++ .dispatch :: (quiet ++ .finish len :: rest) ∧
      .staged group ∈ Moment.events ⟨s.after before, .dispatch⟩ ∧
      (s.after (before ++ [.dispatch])).queue.stats.iterations = k ∧
      group ≠ [] ∧ (∀ u ∈ group, u.priority = schedule.boundary) ∧
      (∀ b ∈ quiet, b.isReport = false) ∧
      numbers[before.countP Action.isReport]? = some n ∧
      (s.departures (before ++ .dispatch :: quiet))[n]? = some (t, i) ∧ t.len = len ∧
      (t ∈ group.map Task.released ∧ i = k ∨
        n < (s.departures before).length ∧ n ∉ numbers.take (before.countP Action.isReport) ∨
        t.isGradient = false) := by
  obtain ⟨schedule, hschedule, hvalid, hreplays⟩ := Queue.replays_create hs hstrategy
  have hscheduled := (Schedule.validate_eq_ok_iff.mp hvalid).2.2
  rw [hdoor] at hreplays
  have hstats : s.queue.stats = {} := by rw [(Queue.create_eq_ok hs).2.2]
  obtain ⟨before, quiet, rest, len, pre, group, rfl, hquiet, hgroup, hnonempty, hpriority, hpass⟩ :=
    Session.exists_report_of_staged hreplays hstats hscheduled hnext hk
  -- the task that the first report is for
  have hfirst : (before ++ .dispatch :: quiet) ++ [.finish len] <+: actions := by
    refine List.IsPrefix.trans ⟨rest ++ [a], ?_⟩ hinitial
    simp
  have hcount : (before ++ .dispatch :: quiet).countP Action.isReport =
      before.countP Action.isReport := by
    have hnone : quiet.countP Action.isReport = 0 := by simpa using hquiet
    simp [hnone, Action.isReport]
  obtain ⟨n, t, i, hn, hdeparted, hlen⟩ := hreports.handedOver _ _ hfirst
  rw [hcount] at hn
  refine ⟨schedule, before, quiet, rest, group, len, n, t, i, hschedule, rfl, by simp [hgroup],
    hpass, hnonempty, hpriority, hquiet, hn, hdeparted, hlen, ?_⟩
  rcases Nat.lt_or_ge n (s.departures before).length with hlt | hge
  · have hlater : n ∈ numbers.drop (before.countP Action.isReport) :=
      List.mem_of_getElem? (i := 0) (by simpa using hn)
    exact .inr (.inl ⟨hlt, fun hsooner =>
      List.disjoint_take_drop hreports.nodup (Nat.le_refl _) hsooner hlater⟩)
  · rw [Session.departures_append, List.getElem?_append_right hge] at hdeparted
    obtain ⟨m, hm, hleft⟩ := List.mem_filterMap.mp (List.mem_of_getElem? hdeparted)
    obtain ⟨u, hu, heq⟩ := Option.map_eq_some_iff.mp hleft
    cases heq
    cases hgradient : t.isGradient with
    | false => exact .inr (.inr rfl)
    | true =>
      obtain ⟨u, hu⟩ := List.exists_mem_of_ne_nil group hnonempty
      obtain ⟨hmem, hiterations⟩ := Session.returned_of_quiet hreplays hstats hscheduled hgroup
        ⟨u, hu, hpriority u hu⟩ hquiet hm (t := t) (by simp [Moment.returnedGradient?, *])
      exact .inl ⟨hmem, hiterations.trans hpass⟩

theorem iteration_waits_for_report_heldBackRun :
    Queue.create .push { strategy := .tokenReplay, schedule := some ⟨[-2, -1], -1, 2⟩ } {} =
        .ok twoTensorReplay.queue ∧
      twoTensorReplay.ReportsAs heldBackRun [1] ∧
      ∃ (before quiet rest : List Action) (group : List Task) (len : Nat),
        heldBackRun.dropLast = before ++ .dispatch :: (quiet ++ .finish len :: rest) ∧
        .staged group ∈ Moment.events ⟨twoTensorReplay.after before, .dispatch⟩ ∧
        (∀ u ∈ group, u.priority = -1) ∧ ∀ b ∈ quiet, b.isReport = false := by
  have hs := Session.create_ofReplay ⟨[-2, -1], -1, 2⟩ rfl .boundary
  set fc : Task := { name := "fc", key := 2, priority := -2, len := 8, payload := .gradient }
  set conv : Task := { name := "conv", key := 1, priority := -1, len := 16, payload := .gradient }
  have hleft : (twoTensorReplay.departures (heldBackRun.take 6))[1]? = some (conv.released, 0) := by
    decide +kernel
  have hreports : twoTensorReplay.ReportsAs heldBackRun [1] :=
    Session.reportsAs_singleton (show ∀ b ∈ heldBackRun.take 6, b.isReport = false by decide)
      (show ∀ b ∈ heldBackRun.drop 7, b.isReport = false by decide) hleft rfl
  have hnext : .staged [fc] ∈
      Moment.events ⟨twoTensorReplay.after heldBackRun.dropLast, .dispatch⟩ := by
    decide +kernel
  obtain ⟨schedule, before, quiet, rest, group, len, n, t, i, hschedule, hactions, hgroup, -, -,
      hpriority, hquiet, -⟩ :=
    iteration_waits_for_report hs rfl rfl hreports ⟨[], rfl⟩ hnext (k := 0) (by decide +kernel)
  cases hschedule
  exact ⟨hs, hreports, before, quiet, rest, group, len, hactions, hgroup, hpriority, hquiet⟩

/-- The tensor before the boundary is reported while the boundary tensor is in flight, and the next
iteration begins. -/
def overtakenRun : List Action :=
  [.submit { name := "fc", key := 2, priority := -2, len := 8, payload := .gradient },
    .submit { name := "conv", key := 1, priority := -1, len := 16, payload := .gradient },
    .dispatch, .dispatch, .finish 8,
    .submit { name := "fc", key := 2, priority := -2, len := 8, payload := .gradient },
    .dispatch]

theorem not_holdsForBoundary_overtakenRun :
    Queue.create .push { strategy := .tokenReplay, schedule := some ⟨[-2, -1], -1, 2⟩ } {} =
        .ok twoTensorReplay.queue ∧
      twoTensorReplay.ReportsAs overtakenRun [0] ∧
      ¬ twoTensorReplay.HoldsForBoundary (-1) overtakenRun [0] := by
  have hs := Session.create_ofReplay ⟨[-2, -1], -1, 2⟩ rfl .boundary
  set fc : Task := { name := "fc", key := 2, priority := -2, len := 8, payload := .gradient }
  have hleft : (twoTensorReplay.departures (overtakenRun.take 4))[0]? = some (fc.released, 0) := by
    decide +kernel
  have hreports : twoTensorReplay.ReportsAs overtakenRun [0] :=
    Session.reportsAs_singleton (show ∀ b ∈ overtakenRun.take 4, b.isReport = false by decide)
      (show ∀ b ∈ overtakenRun.drop 5, b.isReport = false by decide) hleft rfl
  refine ⟨hs, hreports, fun hholds => ?_⟩
  have hnext : .staged [fc] ∈
      Moment.events ⟨twoTensorReplay.after overtakenRun.dropLast, .dispatch⟩ := by
    decide +kernel
  obtain ⟨n, hn, t, hdeparted, -, hpriority⟩ :=
    hholds overtakenRun.dropLast .dispatch [fc] 0 ⟨[], rfl⟩ hnext (by decide +kernel)
  -- what has been reported is the first task that left, and it is not of the boundary
  obtain rfl : n = 0 := List.mem_singleton.mp (List.mem_of_mem_take hn)
  have hfirst : (twoTensorReplay.departures overtakenRun.dropLast)[0]? =
      some (fc.released, 0) := by
    decide +kernel
  rw [hfirst] at hdeparted
  cases hdeparted
  cases hpriority

end TensorDispatch
