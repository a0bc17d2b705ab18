import TensorDispatch.Proofs.Queue.Scan
import TensorDispatch.Proofs.Replay.Selection
import TensorDispatch.Proofs.Throttle.Overflow

/-!
# Idle polls

A dispatch that hands nothing over may still have moved something: a pass has rolled over, the
boundary has been noted, a group has been staged that is not admitted. It does so once. What it
leaves has nothing more to do until something around the queue changes.

* `Replay.Idles`, `Throttle.Idles` — a poll has nothing to do. An empty poll leaves such a state
  (`Replay.idles_of_poll`, `Throttle.idles_of_poll`), and such a state makes the next poll an empty
  one (`Replay.Idles.poll`, `Throttle.Idles.poll`);
* `Queue.Idles` — the same of a queue, its scanned tasks included;
* `Session.Idles.after_polls` — any number of dispatches of a session that idles. Each of them counts
  a refusal if a tensor is due behind the closed door (`Session.Idles.blocks_cases`);
* `empty_poll_stable` — along every run, a dispatch that hands nothing over and enters no window
  leaves a session that idles.
-/

namespace TensorDispatch

/-! ### Replays -/

namespace Replay

variable {r r' : Replay} {admits : Task → Bool}

/-- A poll has nothing to do: no pass rolls over, no refill moves anything, and no front of the
staging buffer is admitted. -/
structure Idles (r : Replay) (admits : Task → Bool) : Prop where
  stays : ¬ r.RollsOver
  refilled : r.refilled = r
  front : (r.releaseStaged admits).1 = none

/-- The next pass has all of its tokens before it. -/
theorem not_rollsOver_rolled (htokens : r.schedule.tokens ≠ []) : ¬ r.rolled.RollsOver := by
  unfold rolled
  split
  · exact fun hroll => htokens hroll.2.1
  · assumption

theorem refilled_of_staged (h : r.staged ≠ []) : r.refilled = r := by
  simp [refilled, h]

/-- A refill has nothing to do behind another one. -/
theorem Refill.refilled_eq {group : Option (List Task)} (h : Refill r group r') :
    r'.refilled = r' := by
  cases h with
  | kept h =>
    rcases h with hstaged | hnone
    · exact refilled_of_staged hstaged
    · simp [refilled, stageNext_of_candidate?_eq_none hnone]
  | @held priority scheduled hempty hnext hseen hclosed =>
    -- the same tensor is reached again, and the boundary has been noted
    have hagain : (r.reach priority scheduled).candidate? = some (priority, scheduled) := hnext
    have hstage := stageNext_of_candidate?_eq_some hagain
    rw [reach_of_boundarySeen _ hseen] at hstage
    have hshut : (r.reach priority scheduled).isOpen = false := by simp [isOpen, reach, hclosed]
    simp [refilled, hstage, hseen, hshut]
  | @moved priority scheduled hempty hnext _ =>
    refine refilled_of_staged ?_
    obtain ⟨t, ts, hgroup, -⟩ := Pending.takeGroup_eq_cons (hasPriority_of_candidate? hnext)
    simp [stage, reach, hgroup]

/-- A refill does not complete a pass. -/
theorem Refill.not_rollsOver {group : Option (List Task)} (h : Refill r group r')
    (hstays : ¬ r.RollsOver) : ¬ r'.RollsOver := by
  cases h with
  | kept => exact hstays
  | held _ _ _ hclosed => exact fun hroll => absurd hroll.2.2.2 (by simp [reach, hclosed])
  | @moved priority scheduled _ hnext _ =>
    obtain ⟨t, ts, hgroup, -⟩ := Pending.takeGroup_eq_cons (hasPriority_of_candidate? hnext)
    exact fun hroll => absurd hroll.2.2.1 (by simp [stage, reach, hgroup])

/-- An empty poll leaves nothing to do for the next one. -/
theorem idles_of_poll {stats : Stats} (htokens : r.schedule.tokens ≠ [])
    (h : (r.poll admits stats).1 = none) : (r.poll admits stats).2.1.Idles admits := by
  rw [poll_eq] at h ⊢
  have hleft := releaseStaged_eq_none h
  simp only [hleft]
  exact ⟨r.rolled.refill.not_rollsOver (not_rollsOver_rolled htokens),
    r.rolled.refill.refilled_eq, h⟩

/-- The refusals that a poll counts which has nothing else to do. -/
def blocks (r : Replay) : Nat := if r.Holds then 1 else 0

/-- With nothing to do, a poll counts its refusal at most. -/
theorem Idles.poll (h : r.Idles admits) (stats : Stats) :
    r.poll admits stats =
      (none, r, { stats with barrierBlocks := stats.barrierBlocks + r.blocks }) := by
  have hrolled : r.rolled = r := if_neg h.stays
  rw [poll_eq, hrolled, h.refilled, h.front, releaseStaged_eq_none h.front]
  by_cases hholds : r.Holds
  · simp [statsAfterPoll, h.stays, hrolled, hholds, blocks, Stats.countBlock]
  · simp [statsAfterPoll, h.stays, hrolled, hholds, blocks]

/-- With nothing to do, a poll refuses a tensor exactly where one is due behind the closed door. -/
theorem Idles.holds_iff (h : r.Idles admits) (hdescends : r.Descends) :
    r.Holds ↔ r.staged = [] ∧ r.boundarySeen = true ∧ r.isOpen = false ∧
      ∃ priority scheduled, r.IsDue priority scheduled := by
  simp only [← candidate?_eq_some_iff hdescends]
  refine and_congr_right fun hempty => ?_
  cases hnext : r.candidate? with
  | none => simp [stageNext_of_candidate?_eq_none hnext]
  | some candidate =>
    obtain ⟨priority, scheduled⟩ := candidate
    have hstage := stageNext_of_candidate?_eq_some hnext
    have hrefilled : r.stageNext.2 = r := by simpa [Replay.refilled, hempty] using h.refilled
    by_cases hheld : ((r.reach priority scheduled).boundarySeen && !r.isOpen) = true
    · rw [if_pos hheld] at hstage
      rw [hstage] at hrefilled ⊢
      rw [show r.reach priority scheduled = r from hrefilled] at hheld
      simpa using hheld
    · rw [if_neg hheld] at hstage
      rw [hstage]
      refine iff_of_false (by simp) ?_
      rintro ⟨hseen, hclosed, -⟩
      exact hheld (by simp [reach, hseen, hclosed])

end Replay

/-! ### Throttles -/

namespace Throttle

variable {w w' : Throttle} {admits : Task → Bool} {now : Int} {stats stats' : Stats}

/-- A poll has nothing to do: no window is entered, and no first gradient leaves. -/
structure Idles (w : Throttle) (admits : Task → Bool) (now : Int) : Prop where
  stays : ¬ w.Rolls now
  front : (w.releaseFirst admits).1 = none

/-- A poll that enters no window is a release. -/
theorem poll_eq_of_not_rolls (h : ¬ w.Rolls now) :
    w.poll admits now stats =
      .answered (w.releaseFirst admits).1 ((w.releaseFirst admits).2, stats) := by
  unfold poll
  split
  · rename_i hempty
    simp [releaseFirst, List.isEmpty_iff.mp hempty]
  · rename_i hwaiting
    rw [if_neg fun hexpired => h ⟨by simpa using hwaiting, hexpired⟩]

/-- An empty poll that enters no window changes nothing, and leaves nothing to do. -/
theorem idles_of_poll (h : w.poll admits now stats = .answered none (w', stats'))
    (hrolls : stats'.windowRolls = stats.windowRolls) :
    w' = w ∧ stats' = stats ∧ w.Idles admits now := by
  have hstays : ¬ w.Rolls now := by
    intro hroll
    have hwaiting : w.pending.tasks.isEmpty = false := by simpa using hroll.1
    rcases hresult : w.roll with ⟨f | ⟨⟩, w₁⟩
    · simp [poll, hwaiting, hroll.2, hresult, Outcome.answered, Outcome.refused] at h
    · obtain ⟨-, hcounted⟩ : w₁ = w' ∧ stats.countRoll = stats' := by
        simpa [poll, hwaiting, hroll.2, hresult, Outcome.answered] using h
      simp [← hcounted, Stats.countRoll] at hrolls
  rw [poll_eq_of_not_rolls hstays] at h
  simp only [Outcome.answered, Outcome.mk.injEq, Except.ok.injEq, Prod.mk.injEq] at h
  obtain ⟨hfront, hw, hstats⟩ := h
  rw [releaseFirst_eq_none hfront] at hw
  exact ⟨hw.symm, hstats.symm, hstays, hfront⟩

theorem Idles.poll (h : w.Idles admits now) (stats : Stats) :
    w.poll admits now stats = .answered none (w, stats) := by
  rw [poll_eq_of_not_rolls h.stays, h.front, releaseFirst_eq_none h.front]

end Throttle

/-! ### Queues -/

/-- A poll of the policy has nothing to do. -/
def Policy.Idles (admits : Task → Bool) (now : Int) : Policy → Prop
  | plain => True
  | replay r => r.Idles admits
  | throttle w => w.Idles admits now

/-- The refusals that a poll counts which has nothing else to do. -/
def Policy.blocks : Policy → Nat
  | replay r => r.blocks
  | _ => 0

namespace Queue

variable {q q' : Queue} {readiness : Readiness} {now : Int}

/-- A choice has nothing to do. -/
structure Idles (q : Queue) (readiness : Readiness) (now : Int) : Prop where
  scanned : ∀ t ∈ q.scanned.tasks, q.admits readiness t = false
  policy : q.policy.Idles (q.admits readiness) now

/-- The queue that has counted some refusals. -/
def blocked (n : Nat) (q : Queue) : Queue :=
  { q with stats := { q.stats with barrierBlocks := q.stats.barrierBlocks + n } }

@[simp] theorem policy_blocked (n : Nat) (q : Queue) : (q.blocked n).policy = q.policy := rfl

@[simp] theorem blocked_zero (q : Queue) : q.blocked 0 = q := rfl

@[simp] theorem blocked_blocked (m n : Nat) (q : Queue) :
    (q.blocked m).blocked n = q.blocked (m + n) := by
  simp [blocked, Nat.add_assoc]

theorem Idles.blocked (h : q.Idles readiness now) (n : Nat) : (q.blocked n).Idles readiness now :=
  ⟨h.scanned, h.policy⟩

/-- With nothing to do, a choice counts its refusal at most. -/
theorem Idles.choose (h : q.Idles readiness now) :
    q.choose readiness now = .answered none (q.blocked q.policy.blocks) := by
  have hgradient : q.chooseGradient readiness now =
      .answered none (q.blocked q.policy.blocks) := by
    obtain ⟨-, hpolicy⟩ := h
    obtain ⟨stage, strategy, gated, scanned, credit, policy, stats⟩ := q
    cases policy with
    | plain => rfl
    | replay r =>
      simp only [chooseGradient, Replay.Idles.poll hpolicy]
      rfl
    | throttle w =>
      simp only [chooseGradient, Throttle.Idles.poll hpolicy]
      rfl
  have hscanned := chooseScanned_of_none (h.blocked q.policy.blocks).scanned
  simp only [Queue.choose, hgradient, Outcome.answered, hscanned]

/-- A policy that lets nothing go and enters no window has nothing more to do. -/
theorem idles_of_chooseGradient (htokens : ∀ r, q.policy = .replay r → r.schedule.tokens ≠ [])
    (h : q.chooseGradient readiness now = .answered none q')
    (hrolls : q'.stats.windowRolls = q.stats.windowRolls) :
    q'.policy.Idles (q.admits readiness) now := by
  unfold chooseGradient at h
  cases hpolicy : q.policy with
  | plain =>
    simp only [hpolicy, Outcome.answered, Outcome.mk.injEq, true_and] at h
    rw [← h, hpolicy]
    trivial
  | replay r =>
    simp only [hpolicy, Outcome.answered, Outcome.mk.injEq, Except.ok.injEq] at h
    rw [← h.2]
    exact Replay.idles_of_poll (htokens r hpolicy) h.1
  | throttle w =>
    rcases hpoll : w.poll (q.admits readiness) now q.stats with ⟨result, w', stats⟩
    simp only [hpolicy, hpoll, Outcome.within, Outcome.answered, Outcome.mk.injEq] at h
    obtain ⟨rfl, rfl⟩ := h
    obtain ⟨rfl, -, hidles⟩ := Throttle.idles_of_poll hpoll hrolls
    exact hidles

/-- A choice of nothing that enters no window leaves nothing to do. -/
theorem idles_of_choose (htokens : ∀ r, q.policy = .replay r → r.schedule.tokens ≠ [])
    (h : q.choose readiness now = .answered none q')
    (hrolls : q'.stats.windowRolls = q.stats.windowRolls) : q'.Idles readiness now := by
  obtain ⟨policy, stats, hstate, -⟩ := (q.chooseGradient_spec readiness now).1
  rw [choose_eq] at h
  rcases hasked : q.chooseGradient readiness now with ⟨f | _ | t, q₁⟩
  · simp [hasked, Outcome.answered] at h
  · simp only [hasked, Outcome.answered, Outcome.mk.injEq, Except.ok.injEq] at h
    obtain ⟨hfound, rfl⟩ := h
    have hidles := idles_of_chooseGradient htokens hasked hrolls
    rw [hasked] at hstate
    obtain rfl : q₁ = { q with policy, stats } := hstate
    refine ⟨fun t ht => ?_, hidles⟩
    have hrefused := List.find?_eq_none.mp hfound t (List.mem_of_mem_eraseP ht)
    exact Bool.eq_false_iff.mpr hrefused
  · simp [hasked, Outcome.answered] at h

end Queue

/-! ### Sessions -/

namespace Session

variable {s : Session}

/-- A dispatch has nothing to do. -/
def Idles (s : Session) : Prop := s.queue.Idles s.readiness s.now

/-- The session whose queue has counted some refusals. -/
def blocked (n : Nat) (s : Session) : Session := { s with queue := s.queue.blocked n }

/-- With nothing to do, a dispatch counts its refusal at most. -/
theorem Idles.dispatch (h : s.Idles) :
    s.dispatch = .answered none (s.blocked s.queue.policy.blocks) := by
  rw [Session.dispatch, Queue.Idles.choose h]
  rfl

/-- With nothing to do, any number of dispatches count their refusals at most. -/
theorem Idles.after_polls (h : s.Idles) (n : Nat) :
    (∀ m ∈ s.history (List.replicate n .dispatch), m.outcome.result = .ok none) ∧
      s.after (List.replicate n .dispatch) = s.blocked (n * s.queue.policy.blocks) := by
  induction n generalizing s with
  | zero => simp [blocked]
  | succ n ih =>
    have hnext : (s.blocked s.queue.policy.blocks).Idles := Queue.Idles.blocked h _
    obtain ⟨hnone, hafter⟩ := ih hnext
    have hact : (s.act .dispatch).state = s.blocked s.queue.policy.blocks := by
      rw [show s.act .dispatch = s.dispatch from rfl, h.dispatch, Outcome.state_answered]
    rw [List.replicate_succ, after_cons, hact, hafter]
    refine ⟨fun m hm => ?_, ?_⟩
    · rw [history, hact] at hm
      rcases List.mem_cons.mp hm with rfl | hm
      · rw [Moment.outcome_dispatch, h.dispatch, Outcome.result_answered]
      · exact hnone m hm
    · simp [blocked, Nat.succ_mul, Nat.add_comm]

end Session

/-! ### Runs -/

/-- Only token replay has a replay for its policy. -/
theorem Queue.eq_tokenReplay_of_policyOf {strategy : Strategy} {config : QueueConfig} {r : Replay}
    (h : policyOf strategy config = .ok (.replay r)) : strategy = .tokenReplay := by
  obtain ⟨-, hother⟩ | ⟨schedule, hreplay, -, -⟩ | ⟨plan, -, -, hother⟩ := policyOf_eq_ok_iff.mp h
  · cases hother
  · exact hreplay
  · cases hother

/-- Along every run, a replay follows a usable schedule, and its gradients stand in descending
priority. -/
theorem Session.replay_after {stage : Stage} {config : QueueConfig} {role : Role} {s : Session}
    (hs : Queue.create stage config role = .ok s.queue) {actions : List Action} {r : Replay}
    (h : (s.after actions).queue.policy = .replay r) :
    r.schedule.validate = .ok () ∧ r.Descends := by
  cases hpolicy : s.queue.policy with
  | plain => simp [plain_after hpolicy actions] at h
  | throttle w =>
    obtain ⟨w', hafter, -⟩ := exists_throttle_after hpolicy actions
    simp [hafter] at h
  | replay r₀ =>
    have hcreated := (Queue.create_eq_ok hs).2.1
    rw [hpolicy] at hcreated
    have hstrategy := Queue.eq_tokenReplay_of_policyOf hcreated
    rw [Queue.strategyAt] at hstrategy
    split at hstrategy
    · rename_i hpush
      subst hpush
      obtain ⟨schedule, -, hvalid, hreplays⟩ := Queue.replays_create hs hstrategy
      have hscheduled := (Schedule.validate_eq_ok_iff.mp hvalid).2.2
      obtain ⟨r', hafter, hplan, -⟩ := sights_after hreplays hscheduled actions
      obtain rfl : r' = r := by simpa using hafter.policy.symm.trans h
      obtain rfl : r'.schedule = schedule := congrArg Prod.fst hplan
      have hstats : s.queue.stats = {} := by rw [(Queue.create_eq_ok hs).2.2]
      exact ⟨hvalid, descends_after hreplays hstats hafter⟩
    · cases hstrategy

/-- Where a dispatch has nothing to do, it refuses a tensor exactly where one is due behind the closed
door. -/
theorem Session.Idles.blocks_cases {stage : Stage} {config : QueueConfig} {role : Role} {s : Session}
    (hs : Queue.create stage config role = .ok s.queue) {actions : List Action}
    (h : (s.after actions).Idles) :
    let policy := (s.after actions).queue.policy
    let held : Prop := ∃ r priority scheduled, policy = .replay r ∧ r.staged = [] ∧
      r.IsDue priority scheduled ∧ r.boundarySeen = true ∧ r.isOpen = false
    policy.blocks = 1 ∧ held ∨ policy.blocks = 0 ∧ ¬ held := by
  intro policy held
  cases hpolicy : policy with
  | plain => simp [held, hpolicy, Policy.blocks]
  | throttle w => simp [held, hpolicy, Policy.blocks]
  | replay r =>
    have hidles : policy.Idles ((s.after actions).queue.admits (s.after actions).readiness)
      (s.after actions).now := h.policy
    rw [hpolicy] at hidles
    have hheld : held ↔ r.Holds := by
      rw [Replay.Idles.holds_iff hidles (replay_after hs hpolicy).2]
      constructor
      · rintro ⟨r', priority, scheduled, hr', hempty, hdue, hseen, hclosed⟩
        obtain rfl : r = r' := by simpa [hpolicy] using hr'
        exact ⟨hempty, hseen, hclosed, priority, scheduled, hdue⟩
      · rintro ⟨hempty, hseen, hclosed, priority, scheduled, hdue⟩
        exact ⟨r, priority, scheduled, hpolicy, hempty, hdue, hseen, hclosed⟩
    rw [hheld]
    by_cases hholds : r.Holds
    · exact .inl ⟨if_pos hholds, hholds⟩
    · exact .inr ⟨if_neg hholds, hholds⟩

/-- **Empty polls are stable.** Along every run of any queue, refused calls included, let a dispatch
hand nothing over and enter no window. From then on, with nothing else done to the session, every
dispatch hands nothing over. It changes nothing either, except that it counts a refusal exactly
where a tensor is due behind the boundary and the closed door, and nothing is staged. -/
theorem empty_poll_stable {stage : Stage} {config : QueueConfig} {role : Role} {s : Session}
    (hs : Queue.create stage config role = .ok s.queue) (actions : List Action)
    (hnone : (s.after actions).dispatch.result = .ok none)
    (hrolls : (s.after actions).dispatch.state.queue.stats.windowRolls =
      (s.after actions).queue.stats.windowRolls) (n : Nat) :
    let quiet := (s.after actions).dispatch.state
    let held : Prop := ∃ r priority scheduled, quiet.queue.policy = .replay r ∧ r.staged = [] ∧
      r.IsDue priority scheduled ∧ r.boundarySeen = true ∧ r.isOpen = false
    let stats := quiet.queue.stats
    let polls := List.replicate n Action.dispatch
    (∀ m ∈ quiet.history polls, m.outcome.result = .ok none) ∧
      (held → quiet.after polls = { quiet with
        queue := { quiet.queue with
          stats := { stats with barrierBlocks := stats.barrierBlocks + n } } }) ∧
      (¬ held → quiet.after polls = quiet) := by
  intro quiet held stats polls
  have hquiet : quiet.Idles := by
    rcases (s.after actions).dispatch_cases with
      ⟨f, q, -, hdispatch⟩ | ⟨q, hchoose, hdispatch⟩ | ⟨t, q, credit, s', -, -, -, hdispatch, -⟩
    · simp [hdispatch] at hnone
    · rw [hdispatch] at hrolls
      have htokens : ∀ r, (s.after actions).queue.policy = .replay r → r.schedule.tokens ≠ [] :=
        fun r hr => (Schedule.validate_eq_ok_iff.mp (Session.replay_after hs hr).1).1
      have hidles := Queue.idles_of_choose htokens hchoose hrolls
      show Session.Idles (s.after actions).dispatch.state
      rw [hdispatch]
      exact hidles
    · simp [hdispatch] at hnone
  have hreached : s.after (actions ++ [.dispatch]) = quiet := s.after_concat actions .dispatch
  have hblocks : quiet.queue.policy.blocks = 1 ∧ held ∨ quiet.queue.policy.blocks = 0 ∧ ¬ held := by
    have hcases := Session.Idles.blocks_cases hs (hreached ▸ hquiet)
    rwa [hreached] at hcases
  obtain ⟨hall, hafter⟩ := hquiet.after_polls n
  refine ⟨hall, fun hheld => ?_, fun hfree => ?_⟩
  · rcases hblocks with ⟨hone, -⟩ | ⟨-, hfree⟩
    · rw [hafter, hone, Nat.mul_one]
      rfl
    · exact absurd hheld hfree
  · rcases hblocks with ⟨-, hheld⟩ | ⟨hzero, -⟩
    · exact absurd hheld hfree
    · rw [hafter, hzero, Nat.mul_zero]
      rfl

theorem empty_poll_stable_refusedRun :
    let s := Session.ofReplay ⟨[-1, -2], -1, 2⟩ .boundary
    let quiet := (s.after refusedRun).dispatch.state
    Queue.create .push { strategy := .tokenReplay, schedule := some ⟨[-1, -2], -1, 2⟩ } {} =
        .ok s.queue ∧
      (s.after refusedRun).dispatch.result = .ok none ∧
      (∀ m ∈ quiet.history (List.replicate 3 .dispatch), m.outcome.result = .ok none) ∧
      quiet.queue.stats.barrierBlocks = 1 ∧
      (quiet.after (List.replicate 3 .dispatch)).queue.stats.barrierBlocks = 4 := by
  intro s quiet
  have hs := Session.create_ofReplay ⟨[-1, -2], -1, 2⟩ rfl .boundary
  have hnone : (s.after refusedRun).dispatch.result = .ok none := by decide +kernel
  obtain ⟨hall, hheld, -⟩ := empty_poll_stable (s := s) hs refusedRun hnone (by decide +kernel) 3
  set fc : Task := { name := "fc", key := 2, priority := -2, len := 8, payload := .gradient }
  have hpolicy : quiet.queue.policy = .replay
      { Replay.start ⟨[-1, -2], -1, 2⟩ .boundary with
        pending := { ordered := true, tasks := [fc] }, tokens := [-2], boundarySeen := true,
        permits := 0, stagedTensors := 1 } := by
    decide +kernel
  have hblocks : quiet.queue.stats.barrierBlocks = 1 := by decide +kernel
  refine ⟨hs, hnone, hall, hblocks, ?_⟩
  rw [hheld ⟨_, -2, true, hpolicy, rfl, .token rfl ⟨fc, by simp, rfl⟩, rfl, rfl⟩]
  exact congrArg (· + 3) hblocks

end TensorDispatch
