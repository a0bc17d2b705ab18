import TensorDispatch.Proofs.Replay.Permits

/-!
# Whether a door reopens

A closed door has its boundary behind it, so the next completion reaches the replay and not the
credit. It opens the door, unless the door is a counted one that banks no permit at all.

* `Queue.finish_of_closed` — a completion that finds the door closed is answered, and leaves it
  open unless its limit is zero;
* `Replay.Shut`, `Session.shut_after` — a door of limit zero is closed for good once it is closed:
  no pass rolls over behind it, and no gradient moves up any more;
* `closed_door_reopens_iff` — so a completion opens a closed door exactly where the limit is not
  zero;
* `not_reopens_zeroLimitRun` — and a usable configuration may set the limit to zero.
-/

namespace TensorDispatch

open Session (twoTensorReplay)

/-! ### One completion -/

namespace Replay

/-- A closed door counts from zero, so its count does not overflow. -/
theorem grantPermit_of_closed {r : Replay} (hclosed : r.permits = 0) :
    ∃ permits, r.grantPermit = .ok permits ∧ (0 < permits ↔ r.door ≠ .counted 0) := by
  unfold grantPermit
  cases hdoor : r.door with
  | boundary => exact ⟨1, rfl, by simp⟩
  | counted limit =>
    refine ⟨min 1 limit, by simp [hclosed, halfWordBound], ?_⟩
    simp only [ne_eq, Door.counted.injEq]
    omega

end Replay

/-- A completion that finds the door closed is answered, and opens it unless its limit is zero. -/
theorem Queue.finish_of_closed {q : Queue} {r : Replay} (hpolicy : q.policy = .replay r)
    (hseen : r.boundarySeen = true) (hclosed : r.permits = 0) (len : Nat) :
    (q.finish len).IsAnswered ∧
      ((q.finish len).state.policy.doorIsOpen = true ↔ r.door ≠ .counted 0) := by
  obtain ⟨permits, hgrant, hpositive⟩ := r.grantPermit_of_closed hclosed
  simp [finish, hpolicy, hseen, hgrant, Policy.doorIsOpen, Replay.isOpen, ← hpositive]

/-! ### Doors that no completion opens -/

namespace Replay

/-- A closed door of limit zero. -/
structure Shut (r : Replay) : Prop where
  door : r.door = .counted 0
  closed : r.permits = 0
  seen : r.boundarySeen = true

namespace Shut

variable {r r' : Replay}

/-- No pass rolls over behind a closed door. -/
theorem not_rollsOver (h : r.Shut) : ¬ r.RollsOver := fun hroll =>
  absurd h.closed (Nat.pos_iff_ne_zero.mp hroll.2.2.2)

/-- No tensor passes a closed door behind the boundary. -/
theorem refill_eq {group : Option (List Task)} (hrefill : Refill r group r') (h : r.Shut) :
    group = none ∧ r' = r := by
  cases hrefill with
  | kept => exact ⟨rfl, rfl⟩
  | held => exact ⟨rfl, r.reach_of_boundarySeen h.seen _ _⟩
  | @moved priority scheduled _ _ hopen =>
    rw [r.reach_of_boundarySeen h.seen] at hopen
    have hpositive := hopen h.seen
    rw [h.closed] at hpositive
    cases hpositive

/-- A completion grants nothing. -/
theorem completed_eq (h : r.Shut) : r.completed = r := by
  obtain ⟨permits, hgrant, hpositive⟩ := r.grantPermit_of_closed h.closed
  have hnone : permits = 0 := Nat.eq_zero_of_not_pos fun hpos => hpositive.mp hpos h.door
  rw [completed, if_pos h.seen, hgrant, hnone, ← h.closed]

/-- One action leaves the door closed and moves no gradient up. -/
theorem onReplay {m : Moment} {events : List ReplayEvent} (hm : m.OnReplay r events r')
    (h : r.Shut) :
    r'.Shut ∧ (∀ e ∈ events, e = .finished) ∧ ∀ t ∈ r.pending.tasks, t ∈ r'.pending.tasks := by
  cases hm with
  | @submitted t =>
    refine ⟨⟨h.door, h.closed, h.seen⟩, by simp, fun u hu => ?_⟩
    exact (r.pending.perm_insert t).mem_iff.mpr (List.mem_cons_of_mem t hu)
  | polled =>
    have hrolled : r.rolled = r := if_neg h.not_rollsOver
    obtain ⟨hgroup, hrefilled⟩ := h.refill_eq r.refill
    obtain ⟨later, hreleased⟩ :=
      r.exists_releaseStaged_eq (m.before.queue.admits m.before.readiness)
    have hpoll : (m.poll r).2 = { r with staged := later } := by
      rw [Moment.poll, hrolled, hrefilled, hreleased]
    rw [hpoll]
    refine ⟨⟨h.door, h.closed, h.seen⟩, ?_, fun _ ht => ht⟩
    simp [pollEvents, hrolled, hgroup, h.not_rollsOver]
  | completed =>
    rw [h.completed_eq]
    exact ⟨h, by simp, fun _ ht => ht⟩
  | other => exact ⟨h, by simp, fun _ ht => ht⟩

end Shut

end Replay

/-! ### Runs -/

namespace Session

/-- The replay of a session knows of its boundary along every run, whatever its door is. -/
theorem sights_after {s : Session} {schedule : Schedule} {door : Door}
    (hreplays : s.queue.Replays (.start schedule door))
    (hscheduled : schedule.boundary ∈ schedule.tokens) (actions : List Action) :
    ∃ r, (s.after actions).queue.Replays r ∧ r.plan = (schedule, door) ∧
      r.Sights (s.trace actions) := by
  refine history_induction (I := fun h s => ∃ r, s.queue.Replays r ∧ r.plan = (schedule, door) ∧
    r.Sights (h.flatMap Moment.events)) ⟨_, hreplays, rfl, .start hscheduled door⟩ ?_ actions
  rintro h m ⟨r, hbefore, hplan, hsights⟩
  obtain ⟨r', hafter, hm, -⟩ := Moment.onReplay hbefore
  refine ⟨r', hafter, hm.plan.trans hplan, ?_⟩
  rw [List.flatMap_append, List.flatMap_singleton]
  exact hsights.onReplay hm

/-- A closed door of limit zero is closed for good: completions are all that still happens, and
the gradients behind the door stay there. -/
theorem shut_after {s : Session} {r : Replay} (hreplays : s.queue.Replays r) (hshut : r.Shut)
    (later : List Action) :
    ∃ r', (s.after later).queue.Replays r' ∧ r'.Shut ∧
      (s.after later).queue.stats.iterations = s.queue.stats.iterations ∧
      (∀ e ∈ s.trace later, e = .finished) ∧ ∀ t ∈ r.pending.tasks, t ∈ r'.pending.tasks := by
  refine history_induction (I := fun h now => ∃ r', now.queue.Replays r' ∧ r'.Shut ∧
    now.queue.stats.iterations = s.queue.stats.iterations ∧
    (∀ e ∈ h.flatMap Moment.events, e = .finished) ∧ ∀ t ∈ r.pending.tasks, t ∈ r'.pending.tasks)
    ⟨r, hreplays, hshut, rfl, by simp, fun _ ht => ht⟩ ?_ later
  rintro h m ⟨r₁, hbefore, hshut, hiterations, hevents, hstay⟩
  obtain ⟨r₂, hafter, hm, hcount⟩ := Moment.onReplay hbefore
  obtain ⟨hshut', hevents', hstay'⟩ := hshut.onReplay hm
  have hnone : m.events.filter (· = .rolledOver) = [] := by
    rw [List.filter_eq_nil_iff]
    intro e he
    simp [hevents' e he]
  refine ⟨r₂, hafter, hshut', ?_, ?_, fun t ht => hstay' t (hstay t ht)⟩
  · rw [hcount, hnone, hiterations, List.length_nil, Nat.add_zero]
  · rw [List.flatMap_append, List.flatMap_singleton]
    intro e he
    exact (List.mem_append.mp he).elim (hevents e) (hevents' e)

/-- One completion opens the door that a run has closed. -/
def Reopens (s : Session) (actions : List Action) : Prop :=
  (s.after actions).queue.policy.doorIsOpen = false →
    ∀ len, ((s.after actions).finish len).IsAnswered ∧
      (s.after (actions ++ [.finish len])).queue.policy.doorIsOpen = true

end Session

/-- **Which doors reopen.** A completion that finds the door closed is answered, and opens it
exactly where the door is not a counted one of limit zero. A door of limit zero stays closed once
it is closed: no later iteration begins, and no gradient that waits behind it ever moves up. -/
theorem closed_door_reopens_iff {config : QueueConfig} {role : Role} {s : Session}
    (hs : Queue.create .push config role = .ok s.queue)
    (hstrategy : config.strategy = .tokenReplay) {actions : List Action}
    (hclosed : (s.after actions).queue.policy.doorIsOpen = false) :
    (∀ len, ((s.after actions).finish len).IsAnswered) ∧
      (s.Reopens actions ↔ config.door ≠ .counted 0) ∧
      (config.door = .counted 0 → ∀ later : List Action,
        (s.after (actions ++ later)).queue.policy.doorIsOpen = false ∧
        (s.after (actions ++ later)).queue.stats.iterations =
          (s.after actions).queue.stats.iterations ∧
        (∀ e ∈ (s.after actions).trace later, e = .finished) ∧
        ∀ t ∈ (s.after actions).queue.policy.pendingTasks,
          t ∈ (s.after (actions ++ later)).queue.policy.pendingTasks) := by
  obtain ⟨schedule, -, hvalid, hreplays⟩ := Queue.replays_create hs hstrategy
  have hscheduled := (Schedule.validate_eq_ok_iff.mp hvalid).2.2
  obtain ⟨r, hafter, hplan, hsights⟩ := Session.sights_after hreplays hscheduled actions
  have hdoor : r.door = config.door := congrArg Prod.snd hplan
  have hpermits : r.permits = 0 := by
    simpa [hafter.policy, Policy.doorIsOpen, Replay.isOpen] using hclosed
  have hseen := hsights.closed hpermits
  have hfinish := Queue.finish_of_closed hafter.policy hseen hpermits
  rw [hdoor] at hfinish
  have hanswered : ∀ len, ((s.after actions).finish len).IsAnswered := fun len => (hfinish len).1
  refine ⟨hanswered, ⟨fun hreopens => ?_, fun hlimit _ len => ⟨hanswered len, ?_⟩⟩, ?_⟩
  · have hopen := (hreopens hclosed 0).2
    rw [Session.after_concat, Moment.queue_after_finish] at hopen
    exact (hfinish 0).2.mp hopen
  · rw [Session.after_concat, Moment.queue_after_finish]
    exact (hfinish len).2.mpr hlimit
  · intro hzero later
    obtain ⟨r', hlater, hshut, hiterations, hevents, hstay⟩ :=
      Session.shut_after hafter ⟨hdoor.trans hzero, hpermits, hseen⟩ later
    rw [Session.after_append]
    refine ⟨?_, hiterations, hevents, ?_⟩
    · simp [hlater.policy, Policy.doorIsOpen, Replay.isOpen, hshut.closed]
    · simpa [hlater.policy, hafter.policy, Policy.pendingTasks] using hstay

theorem closed_door_reopens_iff_heldBackRun :
    Queue.create .push { strategy := .tokenReplay, schedule := some ⟨[-2, -1], -1, 2⟩ } {} =
        .ok twoTensorReplay.queue ∧
      (twoTensorReplay.after (heldBackRun.take 4)).queue.policy.doorIsOpen = false ∧
      twoTensorReplay.Reopens (heldBackRun.take 4) := by
  have hs := Session.create_ofReplay ⟨[-2, -1], -1, 2⟩ rfl .boundary
  have hclosed : (twoTensorReplay.after (heldBackRun.take 4)).queue.policy.doorIsOpen = false := by
    decide +kernel
  exact ⟨hs, hclosed, (closed_door_reopens_iff hs rfl hclosed).2.1.mpr (by decide)⟩

/-- The only tensor of a pass closes the door behind itself. -/
def zeroLimitRun : List Action :=
  [.submit { name := "conv", key := 1, priority := -1, len := 16, payload := .gradient }, .dispatch]

theorem not_reopens_zeroLimitRun :
    let s := Session.ofReplay ⟨[-1], -1, 1⟩ (.counted 0)
    Queue.create .push
        { strategy := .tokenReplay, schedule := some ⟨[-1], -1, 1⟩, door := .counted 0 } {} =
          .ok s.queue ∧
      ¬ s.Reopens zeroLimitRun := by
  intro s
  refine ⟨Session.create_ofReplay ⟨[-1], -1, 1⟩ rfl (.counted 0), fun hreopens => ?_⟩
  have hclosed : (s.after zeroLimitRun).queue.policy.doorIsOpen = false := by decide +kernel
  have hlocked : (s.after (zeroLimitRun ++ [.finish 16])).queue.policy.doorIsOpen = false := by
    decide +kernel
  rw [(hreopens hclosed 16).2] at hlocked
  cases hlocked

end TensorDispatch
