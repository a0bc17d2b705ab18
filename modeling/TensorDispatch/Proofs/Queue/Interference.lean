import TensorDispatch.Proofs.Queue.Control

/-!
# Gradients do not notice control traffic

Gradients and controls share the dispatch calls of a queue, its credit, its counters and its table.
What becomes of the gradients depends on none of the controls, and no gradient holds back a control.

* `Session.gradientSide` — the part of a session that decides what becomes of the gradients;
* `Session.gradientSide_submit_control`, `Session.act_gradientSide` — the submission of a control
  leaves it as it is, and every other action does to it what it alone determines;
* `Session.gradientViews` — what a run shows of the gradients. A run shows what it shows without its
  controls (`Session.gradientViews_filter`);
* `control_traffic_inert` — runs that differ in their controls alone show the same of the gradients,
  and controls leave in the order of their submissions.
-/

namespace TensorDispatch

/-! ### What a run shows of the gradients -/

/-- Whether an action submits a control. -/
def Action.submitsControl : Action → Bool
  | .submit t => !t.isGradient
  | _ => false

theorem Action.exists_of_submitsControl {a : Action} (h : a.submitsControl = true) :
    ∃ t, a = .submit t ∧ t.isGradient = false := by
  cases a with
  | submit t => exact ⟨t, rfl, by simpa [submitsControl] using h⟩
  | _ => cases h

/-- What a queue shows of its gradients. -/
structure GradientView where
  staged : Nat
  boundarySeen : Bool
  barrierOpen : Bool
  barrierBlocks : Nat
  windowRolls : Nat
  iterations : Nat
  deriving DecidableEq, Repr

/-- The part of a snapshot that is about gradients. -/
def Snapshot.gradientView (s : Snapshot) : GradientView where
  staged := s.staged
  boundarySeen := s.boundarySeen
  barrierOpen := s.barrierOpen
  barrierBlocks := s.stats.barrierBlocks
  windowRolls := s.stats.windowRolls
  iterations := s.stats.iterations

/-- The gradient that a moment hands over, and what the queue shows behind it. Submissions of
controls are passed over. -/
def Moment.gradientView? (m : Moment) : Option (Option Task × GradientView) :=
  if m.action.submitsControl then none
  else some (m.returnedGradient?, m.after.queue.snapshot.gradientView)

/-- What a run shows of the gradients. -/
def Session.gradientViews (s : Session) (actions : List Action) :
    List (Option Task × GradientView) :=
  (s.history actions).filterMap Moment.gradientView?

/-! ### Tables on some keys -/

namespace Readiness

/-- The expected contributions of a table, and the contributions to some keys. -/
def tableOn (keys : Set Nat) (r : Readiness) : Option (Nat × (keys → Nat)) :=
  r.table.map fun table => (table.expected, fun key => table.count key)

variable {keys : Set Nat} {r r' : Readiness}

theorem isKeyReady_congr (h : r.tableOn keys = r'.tableOn keys) {key : Nat} (hkey : key ∈ keys) :
    r.isKeyReady key = r'.isKeyReady key := by
  unfold tableOn at h
  cases htable : r.table with
  | none => cases htable' : r'.table <;> simp_all [isKeyReady]
  | some table =>
    cases htable' : r'.table with
    | none => simp [htable, htable'] at h
    | some table' =>
      simp only [htable, htable', Option.map_some, Option.some.injEq, Prod.mk.injEq] at h
      have hcount : table.count key = table'.count key := congrFun h.2 ⟨key, hkey⟩
      simp only [isKeyReady, htable, htable', CountingTable.isReady, hcount, h.1]

/-- A key that is acknowledged on both sides keeps them alike. -/
theorem tableOn_acknowledge_congr (h : r.tableOn keys = r'.tableOn keys) (key : Nat) :
    (r.acknowledge key).tableOn keys = (r'.acknowledge key).tableOn keys := by
  have hcleared : ∀ r : Readiness, (r.acknowledge key).tableOn keys =
      (r.tableOn keys).map fun c => (c.1, fun k : keys => if k = key then 0 else c.2 k) := by
    intro r
    simp only [tableOn, acknowledge, Option.map_map, Function.comp_def, CountingTable.count_clear]
    rfl
  rw [hcleared, hcleared, h]

/-- The acknowledgement of another key does not show. -/
theorem tableOn_acknowledge_of_notMem {key : Nat} (h : key ∉ keys) :
    (r.acknowledge key).tableOn keys = r.tableOn keys := by
  have hother : ∀ k : keys, (k : Nat) ≠ key := fun k hk => h (hk ▸ k.2)
  simp only [tableOn, acknowledge, Option.map_map, Function.comp_def, CountingTable.count_clear,
    hother, if_false]
  rfl

end Readiness

/-! ### The side of the gradients -/

/-- What decides what becomes of gradients with these keys. -/
structure GradientSide (keys : Set Nat) where
  policy : Policy
  gated : Bool
  polled : Stats
  raised : List String
  table : Option (Nat × (keys → Nat))
  clock : Int
  wallClock : Option Int

namespace Session

variable {keys : Set Nat} {s s' : Session}

/-- The part of a session that decides what becomes of gradients with these keys. -/
def gradientSide (keys : Set Nat) (s : Session) : GradientSide keys where
  policy := s.queue.policy
  gated := s.queue.gated
  polled := s.queue.stats.polled
  raised := s.readiness.raised
  table := s.readiness.tableOn keys
  clock := s.clock
  wallClock := s.wallClock

theorem gradientView_congr (h : s.gradientSide keys = s'.gradientSide keys) :
    s.queue.snapshot.gradientView = s'.queue.snapshot.gradientView := by
  have hpolicy : s.queue.policy = s'.queue.policy := congrArg GradientSide.policy h
  obtain ⟨hblocks, hrolls, hiterations⟩ :=
    Stats.polled_eq_iff.mp (congrArg GradientSide.polled h)
  simp only [Snapshot.gradientView, Queue.snapshot, hpolicy, hblocks, hrolls, hiterations]

theorem now_congr (h : s.gradientSide keys = s'.gradientSide keys) : s.now = s'.now := by
  have hclock : s.clock = s'.clock := congrArg GradientSide.clock h
  have hwall : s.wallClock = s'.wallClock := congrArg GradientSide.wallClock h
  simp only [now, hclock, hwall]

/-- The queue looks keys up in its table. -/
def ConsultsTable (s : Session) : Prop := s.queue.gated = true ∧ s.readiness.table ≠ none

/-- The keys tell the gradients of a session from its controls, as far as its table can see. -/
structure Isolates (s : Session) (keys : Set Nat) : Prop where
  separates : s.queue.Separates
  gradients : ∀ t ∈ s.queue.policy.tasks, t.key ∈ keys
  controls : s.ConsultsTable → ∀ t ∈ s.queue.scanned.tasks, t.key ∉ keys

end Session

/-- The keys tell whether a task that is submitted is a gradient, if that has to show. -/
def Action.Fits (keys : Set Nat) (tell : Prop) (a : Action) : Prop :=
  ∀ t, a = .submit t → (t.isGradient = true → t.key ∈ keys) ∧
    (tell → t.isGradient = false → t.key ∉ keys)

namespace Session

variable {keys : Set Nat} {s s' : Session}

theorem consultsTable_act (s : Session) (a : Action) :
    (s.act a).state.ConsultsTable ↔ s.ConsultsTable := by
  have hgated : (s.act a).state.queue.gated = s.queue.gated :=
    Queue.gated_eq_of_setup (Moment.setup_after ⟨s, a⟩)
  have htable : (s.act a).state.readiness.table = _ := Moment.table_after ⟨s, a⟩
  simp only [ConsultsTable, hgated, htable, ne_eq, Option.map_eq_none_iff]

theorem Isolates.act (h : s.Isolates keys) {a : Action} (ha : a.Fits keys s.ConsultsTable) :
    (s.act a).state.Isolates keys where
  separates := Moment.separates_after (m := ⟨s, a⟩) h.separates
  gradients t ht := by
    rcases Moment.mem_policy_after (m := ⟨s, a⟩) h.separates.policy ht with
      ht | ⟨haction, hgradient⟩
    · exact h.gradients t ht
    · exact (ha t haction).1 hgradient
  controls hconsults t ht := by
    rw [consultsTable_act] at hconsults
    rcases Moment.mem_scanned_after (m := ⟨s, a⟩) h.separates ht with ht | ⟨haction, hcontrol⟩
    · exact h.controls hconsults t ht
    · exact (ha t haction).2 hconsults hcontrol

/-! ### Submissions -/

/-- The submission of a control leaves the side of the gradients as it is. -/
theorem gradientSide_submit_control {t : Task} (ht : t.isGradient = false) (keys : Set Nat)
    (s : Session) : (s.submit t).state.gradientSide keys = s.gradientSide keys := by
  by_cases hname : t.name = ""
  · simp only [submit, Queue.submit_of_unnamed hname]
    rfl
  · obtain ⟨hpolicy, -, hpolled, -⟩ := Queue.submit_control (q := s.queue) ht hname s.now
    have hgated : (s.submit t).state.queue.gated = s.queue.gated :=
      Queue.gated_eq_of_setup (s.queue.setup_submit s.now t)
    simp only [gradientSide, hgated]
    rw [show (s.submit t).state.queue.policy = _ from hpolicy,
      show (s.submit t).state.queue.stats.polled = _ from hpolled]
    rfl

/-- The submission of a gradient changes the policy alone. -/
theorem gradientSide_submit_gradient (keys : Set Nat) {t : Task} (ht : t.isGradient = true)
    (hpolicy : s.queue.policy ≠ .plain) :
    (s.submit t).state.gradientSide keys =
      { s.gradientSide keys with
        policy := if t.name = "" then s.queue.policy else s.queue.policy.join s.now t } := by
  by_cases hname : t.name = ""
  · simp only [submit, Queue.submit_of_unnamed hname, hname, if_true]
    rfl
  · obtain ⟨hjoined, -, hpolled⟩ := Queue.submit_gradient ht hname hpolicy s.now
    have hgated : (s.submit t).state.queue.gated = s.queue.gated :=
      Queue.gated_eq_of_setup (s.queue.setup_submit s.now t)
    simp only [gradientSide, hgated, hname, if_false]
    rw [show (s.submit t).state.queue.policy = _ from hjoined,
      show (s.submit t).state.queue.stats.polled = _ from hpolled]
    rfl

end Session

/-! ### Dispatches -/

theorem Replay.releaseStaged_congr {admits admits' : Task → Bool} {r : Replay}
    (h : ∀ t ∈ r.staged, admits t = admits' t) :
    r.releaseStaged admits = r.releaseStaged admits' := by
  unfold releaseStaged
  cases hstaged : r.staged with
  | nil => rfl
  | cons t ts =>
    have ht := h t (by simp [hstaged])
    simp only [ht]

theorem Replay.polled_statsAfterPoll {stats stats' : Stats} (h : stats.polled = stats'.polled)
    (r : Replay) : (r.statsAfterPoll stats).polled = (r.statsAfterPoll stats').polled := by
  obtain ⟨hblocks, hrolls, hiterations⟩ := Stats.polled_eq_iff.mp h
  by_cases hroll : r.RollsOver <;> by_cases hheld : r.rolled.Holds <;>
    simp [statsAfterPoll, hroll, hheld, Stats.polled, Stats.countIteration, Stats.countBlock,
      hblocks, hrolls, hiterations]

/-- A poll asks for the admission of pending gradients alone. -/
theorem Throttle.poll_congr {admits admits' : Task → Bool} (now : Int) {w : Throttle}
    {stats stats' : Stats} (h : ∀ t ∈ w.pending.tasks, admits t = admits' t)
    (hstats : stats.polled = stats'.polled) :
    (w.poll admits now stats).within (fun p => (p.1, p.2.polled)) =
      (w.poll admits' now stats').within fun p => (p.1, p.2.polled) := by
  have hrolled : stats.countRoll.polled = stats'.countRoll.polled := by
    obtain ⟨hblocks, hrolls, hiterations⟩ := Stats.polled_eq_iff.mp hstats
    simp only [Stats.polled, Stats.countRoll, hblocks, hrolls, hiterations]
  have hrelease : w.releaseFirst admits = w.releaseFirst admits' := by
    unfold releaseFirst
    cases htasks : w.pending.tasks with
    | nil => rfl
    | cons t ts =>
      have ht := h t (by simp [htasks])
      simp only [ht]
  unfold poll
  rw [hrelease]
  split
  · simp only [Outcome.within, Outcome.answered, hstats]
  · split
    · split
      · simp only [Outcome.within, Outcome.answered, hrolled]
      · simp only [Outcome.within, Outcome.refused, hstats]
    · simp only [Outcome.within, Outcome.answered, hstats]

/-- The choice of a gradient asks for the admission of gradients alone. -/
theorem Queue.chooseGradient_congr {q q' : Queue} {readiness readiness' : Readiness} (now : Int)
    (hpolicy : q.policy = q'.policy) (hpolled : q.stats.polled = q'.stats.polled)
    (hadmits : ∀ t ∈ q.policy.tasks, q.admits readiness t = q'.admits readiness' t) :
    (q.chooseGradient readiness now).within (fun q => (q.policy, q.stats.polled)) =
      (q'.chooseGradient readiness' now).within fun q => (q.policy, q.stats.polled) := by
  unfold chooseGradient
  rw [← hpolicy]
  cases hp : q.policy with
  | plain => simp only [Outcome.within, Outcome.answered, ← hpolicy, hpolled]
  | replay r =>
    have hstaged : ∀ t ∈ r.rolled.refilled.staged,
        q.admits readiness t = q'.admits readiness' t := by
      intro t ht
      have hmem : t ∈ r.tasks := by
        rw [← Replay.tasks_rolled]
        exact r.rolled.refill.perm.mem_iff.mpr (List.mem_append_right _ ht)
      exact hadmits t (by rw [hp]; exact hmem)
    simp only [Replay.poll_eq, Replay.releaseStaged_congr hstaged, Outcome.within,
      Outcome.answered, Replay.polled_statsAfterPoll hpolled r]
  | throttle w =>
    have hpending : ∀ t ∈ w.pending.tasks, q.admits readiness t = q'.admits readiness' t :=
      fun t ht => hadmits t (by simpa [hp, Policy.tasks, Policy.pendingTasks] using .inl ht)
    have hpoll := Throttle.poll_congr now hpending hpolled
    exact congrArg (Outcome.within fun p : Throttle × Stats => (Policy.throttle p.1, p.2)) hpoll

theorem Queue.raised_acknowledgeAll (ts : List Task) (readiness : Readiness) (q : Queue) :
    (q.acknowledgeAll ts readiness).raised = readiness.raised := by
  induction ts generalizing readiness with
  | nil => rfl
  | cons t ts ih =>
    have hraised : (q.acknowledge t readiness).raised = readiness.raised := by
      unfold acknowledge
      split <;> rfl
    exact (ih _).trans hraised

namespace Session

variable {keys : Set Nat} {s s' : Session}

/-- Tasks that are acknowledged on both sides keep the tables alike. -/
theorem tableOn_acknowledgeAll_congr {q q' : Queue} {readiness readiness' : Readiness}
    (hgated : q.gated = q'.gated) (h : readiness.tableOn keys = readiness'.tableOn keys)
    (ts : List Task) :
    (q.acknowledgeAll ts readiness).tableOn keys =
      (q'.acknowledgeAll ts readiness').tableOn keys := by
  induction ts generalizing readiness readiness' with
  | nil => exact h
  | cons t ts ih =>
    refine ih ?_
    unfold Queue.acknowledge
    rw [hgated]
    split
    · exact Readiness.tableOn_acknowledge_congr h t.key
    · exact h

/-- Gradients are admitted alike on equal sides. -/
theorem admits_congr (h : s.gradientSide keys = s'.gradientSide keys) (hs : s.Isolates keys)
    (hs' : s'.Isolates keys) {t : Task} (ht : t.key ∈ keys) :
    s.queue.admits s.readiness t = s'.queue.admits s'.readiness t := by
  have hgated : s.queue.gated = s'.queue.gated := congrArg GradientSide.gated h
  have hraised : s.readiness.raised = s'.readiness.raised := congrArg GradientSide.raised h
  have htable : s.readiness.tableOn keys = s'.readiness.tableOn keys :=
    congrArg GradientSide.table h
  simp only [Queue.admits, Readiness.isReady, hs.separates.credit, hs'.separates.credit, hgated,
    hraised, Readiness.isKeyReady_congr htable ht]

/-- The choice of a gradient is the same on equal sides. -/
theorem chooseGradient_gradientSide (h : s.gradientSide keys = s'.gradientSide keys)
    (hs : s.Isolates keys) (hs' : s'.Isolates keys) :
    (s.queue.chooseGradient s.readiness s.now).within (fun q => (q.policy, q.stats.polled)) =
      (s'.queue.chooseGradient s'.readiness s'.now).within fun q => (q.policy, q.stats.polled) := by
  rw [now_congr h]
  refine Queue.chooseGradient_congr s'.now (congrArg GradientSide.policy h)
    (congrArg GradientSide.polled h) fun t ht => ?_
  exact admits_congr h hs hs' (hs.gradients t ht)

theorem clocks_dispatch (s : Session) :
    s.dispatch.state.clock = s.clock ∧ s.dispatch.state.wallClock = s.wallClock := by
  have hhandOver : ∀ (t : Task) (s : Session), (handOver t s).state.clock = s.clock ∧
      (handOver t s).state.wallClock = s.wallClock := by
    intro t s
    unfold handOver
    split <;> exact ⟨rfl, rfl⟩
  unfold dispatch
  split
  · exact ⟨rfl, rfl⟩
  · exact hhandOver _ _
  · exact ⟨rfl, rfl⟩

/-- The gradient that is handed over is acknowledged, as far as the keys of gradients show. -/
theorem tableOn_dispatch (h : s.Isolates keys) :
    s.dispatch.state.readiness.tableOn keys =
      (s.queue.acknowledgeAll (s.queue.chooseGradient s.readiness s.now).taken
        s.readiness).tableOn keys := by
  obtain ⟨-, -, hcase⟩ := s.dispatch_policy_cases
  rw [readiness_dispatch]
  rcases hcase with ⟨f, hasked, hresult, -⟩ | ⟨t, hasked, hresult, -⟩ | ⟨hasked, hresult, -⟩
  · simp only [Outcome.taken, hasked, hresult]
  · simp only [Outcome.taken, hasked, hresult, Option.toList_some, Queue.acknowledgeAll_singleton]
    rfl
  · cases hfound : s.queue.scanned.tasks.find? (s.queue.admits s.readiness) with
    | none => simp only [Outcome.taken, hasked, hresult, hfound, Option.map_none]
    | some t =>
      simp only [Outcome.taken, hasked, hresult, hfound, Option.map_some, Option.toList_some,
        Option.toList_none, Queue.acknowledgeAll_singleton, Queue.acknowledgeAll_nil,
        Queue.acknowledge]
      split
      · rename_i hgated
        by_cases htable : s.readiness.table = none
        · simp [Readiness.tableOn, Readiness.acknowledge, htable]
        -- the table can tell the control from the gradients
        · have hkey : t.key ∉ keys :=
            h.controls ⟨hgated, htable⟩ t (List.mem_of_find?_eq_some hfound)
          exact Readiness.tableOn_acknowledge_of_notMem hkey
      · rfl

/-- The gradient that a dispatch hands over is the one that the policy lets go. -/
theorem returnedGradient?_dispatch (h : s.queue.Separates) :
    Moment.returnedGradient? ⟨s, .dispatch⟩ =
      (s.queue.chooseGradient s.readiness s.now).taken.head?.map Task.released := by
  have hperm := (s.queue.chooseGradient_spec s.readiness s.now).2.1
  obtain ⟨-, -, hcase⟩ := s.dispatch_policy_cases
  rcases hcase with ⟨f, hasked, hresult, -⟩ | ⟨t, hasked, hresult, -⟩ | ⟨hasked, hresult, -⟩
  · simp [Moment.returnedGradient?, Moment.returned?, Outcome.taken, hasked, hresult]
  · have ht : t.isGradient = true := by
      refine h.gradients t (hperm.mem_iff.mpr ?_)
      simp [Outcome.taken, hasked]
    simp [Moment.returnedGradient?, Moment.returned?, Outcome.taken, hasked, hresult, ht]
  · cases hfound : s.queue.scanned.tasks.find? (s.queue.admits s.readiness) with
    | none =>
      simp [Moment.returnedGradient?, Moment.returned?, Outcome.taken, hasked, hresult, hfound]
    | some t =>
      have ht : t.isGradient = false := h.controls t (List.mem_of_find?_eq_some hfound)
      simp [Moment.returnedGradient?, Moment.returned?, Outcome.taken, hasked, hresult, hfound, ht]

/-- A dispatch hands the same gradient over on equal sides, and leaves equal sides. -/
theorem dispatch_gradientSide (h : s.gradientSide keys = s'.gradientSide keys)
    (hs : s.Isolates keys) (hs' : s'.Isolates keys) :
    Moment.returnedGradient? ⟨s, .dispatch⟩ = Moment.returnedGradient? ⟨s', .dispatch⟩ ∧
      s.dispatch.state.gradientSide keys = s'.dispatch.state.gradientSide keys := by
  have hgated : s.queue.gated = s'.queue.gated := congrArg GradientSide.gated h
  have hraised : s.readiness.raised = s'.readiness.raised := congrArg GradientSide.raised h
  have htable : s.readiness.tableOn keys = s'.readiness.tableOn keys :=
    congrArg GradientSide.table h
  have hclock : s.clock = s'.clock := congrArg GradientSide.clock h
  have hwall : s.wallClock = s'.wallClock := congrArg GradientSide.wallClock h
  obtain ⟨hresult, hstate⟩ := Outcome.within_eq_iff.mp (chooseGradient_gradientSide h hs hs')
  have htaken : (s.queue.chooseGradient s.readiness s.now).taken =
      (s'.queue.chooseGradient s'.readiness s'.now).taken := by
    simp only [Outcome.taken, hresult]
  have hack := tableOn_acknowledgeAll_congr hgated htable
    (s.queue.chooseGradient s.readiness s.now).taken
  refine ⟨?_, ?_⟩
  · rw [returnedGradient?_dispatch hs.separates, returnedGradient?_dispatch hs'.separates, htaken]
  · obtain ⟨hpolicy, hpolled, -⟩ := s.dispatch_policy_cases
    obtain ⟨hpolicy', hpolled', -⟩ := s'.dispatch_policy_cases
    have hgated' : ∀ s : Session, s.dispatch.state.queue.gated = s.queue.gated := fun s =>
      Queue.gated_eq_of_setup (Moment.setup_after ⟨s, .dispatch⟩)
    have hraised' : ∀ s : Session, s.dispatch.state.readiness.raised = s.readiness.raised := by
      intro s
      rw [readiness_dispatch, Queue.raised_acknowledgeAll]
    simp only [Prod.mk.injEq] at hstate
    simp only [gradientSide, GradientSide.mk.injEq, hpolicy, hpolicy', hpolled, hpolled', hgated',
      hraised', clocks_dispatch, tableOn_dispatch hs, tableOn_dispatch hs', ← htaken]
    exact ⟨hstate.1, hgated, hstate.2, hraised, hack, hclock, hwall⟩

/-! ### Other actions -/

/-- A completion changes a policy in the same way whatever has finished. -/
theorem finish_gradientSide (h : s.gradientSide keys = s'.gradientSide keys)
    (hs : s.queue.policy ≠ .plain) (len : Nat) :
    (s.finish len).state.gradientSide keys = (s'.finish len).state.gradientSide keys := by
  have hpolicy : s.queue.policy = s'.queue.policy := congrArg GradientSide.policy h
  have hfinished : (s.queue.finish len).state.policy = (s'.queue.finish len).state.policy := by
    cases hp : s.queue.policy with
    | plain => exact absurd hp hs
    | replay r =>
      rw [Queue.policy_finish_replay hp, Queue.policy_finish_replay (hpolicy ▸ hp)]
    | throttle w =>
      rw [Queue.policy_finish_throttle hp, Queue.policy_finish_throttle (hpolicy ▸ hp)]
  have hkept : ∀ s : Session, (s.finish len).state.gradientSide keys =
      { s.gradientSide keys with policy := (s.queue.finish len).state.policy } := by
    intro s
    obtain ⟨credit, policy, hstate, -⟩ := s.queue.finish_spec len
    have hqueue : (s.finish len).state.queue = _ := hstate
    simp only [gradientSide, hqueue, hstate, Stats.polled_countFinished]
    rfl
  rw [hkept, hkept, h, hfinished]

/-- A change of the surroundings changes equal sides alike. -/
theorem apply_gradientSide (h : s.gradientSide keys = s'.gradientSide keys) (c : Change) :
    (s.apply c).gradientSide keys = (s'.apply c).gradientSide keys := by
  have hraised : s.readiness.raised = s'.readiness.raised := congrArg GradientSide.raised h
  have hclock : s.clock = s'.clock := congrArg GradientSide.clock h
  cases c with
  | raise flag =>
    have hkept : ∀ s : Session, (s.apply (.raise flag)).gradientSide keys =
        { s.gradientSide keys with raised := flag :: s.readiness.raised } := fun _ => rfl
    rw [hkept, hkept, h, hraised]
  | contribute key =>
    have hkept : ∀ s : Session, (s.apply (.contribute key)).gradientSide keys =
        { s.gradientSide keys with
          table := (s.readiness.tableOn keys).map fun c =>
            (c.1, fun k : keys => c.2 k + if key = k then 1 else 0) } := by
      intro s
      cases htable : s.readiness.table with
      | none => simp [apply, step, htable, gradientSide, Readiness.tableOn]
      | some table =>
        simp [apply, step, htable, gradientSide, Readiness.tableOn, CountingTable.count_add]
        rfl
    have htable : s.readiness.tableOn keys = s'.readiness.tableOn keys :=
      congrArg GradientSide.table h
    rw [hkept, hkept, h, htable]
  | openProfile context => exact h
  | setProfiling context on => exact h
  | advance us =>
    have hkept : ∀ s : Session, (s.apply (.advance us)).gradientSide keys =
        { s.gradientSide keys with clock := advanceMicros us s.clock } := fun _ => rfl
    rw [hkept, hkept, h, hclock]

/-- Every action but the submission of a control hands the same gradient over on equal sides, and
leaves equal sides. -/
theorem act_gradientSide (h : s.gradientSide keys = s'.gradientSide keys) (hs : s.Isolates keys)
    (hs' : s'.Isolates keys) {a : Action} (ha : a.submitsControl = false) :
    Moment.returnedGradient? ⟨s, a⟩ = Moment.returnedGradient? ⟨s', a⟩ ∧
      (s.act a).state.gradientSide keys = (s'.act a).state.gradientSide keys := by
  have hpolicy : s.queue.policy = s'.queue.policy := congrArg GradientSide.policy h
  cases a with
  | submit t =>
    have ht : t.isGradient = true := by simpa [Action.submitsControl] using ha
    refine ⟨by simp [Moment.returnedGradient?], ?_⟩
    have hjoined := gradientSide_submit_gradient keys ht hs.separates.policy
    have hjoined' := gradientSide_submit_gradient keys ht hs'.separates.policy
    rw [now_congr h, hpolicy, h] at hjoined
    exact hjoined.trans hjoined'.symm
  | dispatch => exact dispatch_gradientSide h hs hs'
  | dispatchKey key =>
    obtain ⟨f, hrefused⟩ := dispatchKey_of_policy_ne_plain hs.separates.policy key
    obtain ⟨f', hrefused'⟩ := dispatchKey_of_policy_ne_plain hs'.separates.policy key
    simp only [Moment.returnedGradient?, Moment.returned?, Moment.outcome_dispatchKey, act,
      hrefused, hrefused']
    exact ⟨rfl, h⟩
  | finish len =>
    exact ⟨by simp [Moment.returnedGradient?], finish_gradientSide h hs.separates.policy len⟩
  | change c => exact ⟨rfl, apply_gradientSide h c⟩

/-! ### Runs -/

/-- A run shows of the gradients what it shows without its controls. -/
theorem gradientViews_filter (h : s.gradientSide keys = s'.gradientSide keys)
    (hs : s.Isolates keys) (hs' : s'.Isolates keys) {actions : List Action}
    (hfits : ∀ a ∈ actions, a.Fits keys s.ConsultsTable) :
    s.gradientViews actions = s'.gradientViews (actions.filter fun a => !a.submitsControl) := by
  induction actions generalizing s s' with
  | nil => rfl
  | cons a actions ih =>
    have ha := hfits a List.mem_cons_self
    have hacted := hs.act ha
    have hlater : ∀ b ∈ actions, b.Fits keys (s.act a).state.ConsultsTable := by
      intro b hb
      rw [consultsTable_act]
      exact hfits b (List.mem_cons_of_mem a hb)
    cases hcontrol : a.submitsControl with
    | true =>
      -- the second run goes without this action
      obtain ⟨t, rfl, ht⟩ := Action.exists_of_submitsControl hcontrol
      have hsame : (s.act (.submit t)).state.gradientSide keys = s'.gradientSide keys :=
        (gradientSide_submit_control ht keys s).trans h
      have hrest := ih hsame hacted hs' hlater
      simpa [gradientViews, history, Moment.gradientView?, hcontrol] using hrest
    | false =>
      obtain ⟨hreturned, hside⟩ := act_gradientSide h hs hs' hcontrol
      have hacted' : (s'.act a).state.Isolates keys := by
        refine hs'.act fun t hat => ⟨(ha t hat).1, fun _ ht => ?_⟩
        simp [hat, Action.submitsControl, ht] at hcontrol
      have hrest := ih hside hacted hacted' hlater
      have hview : Moment.gradientView? ⟨s, a⟩ = Moment.gradientView? ⟨s', a⟩ := by
        have hshown := gradientView_congr hside
        simp only [Moment.gradientView?, hcontrol, hreturned, Moment.after, Moment.outcome, hshown]
      simp only [gradientViews, history, List.filterMap_cons, hview, List.filter_cons, hcontrol,
        Bool.not_false, if_true] at hrest ⊢
      rw [hrest]

/-- If the queue looks keys up in its table, no control has the key of a gradient. -/
def KeepsKeysApart (s : Session) (actions : List Action) : Prop :=
  s.ConsultsTable → ∀ t u, .submit t ∈ actions → .submit u ∈ actions →
    t.isGradient = false → u.isGradient = true → t.key ≠ u.key

/-- The keys of the gradients that are submitted. -/
def gradientKeys (actions : List Action) : Set Nat :=
  { key | ∃ t, Action.submit t ∈ actions ∧ t.isGradient = true ∧ t.key = key }

/-- A run of a queue that is empty at first shows what it shows without its controls. -/
theorem gradientViews_eq_filter (hs : s.queue.Separates) (hempty : s.queue.tasks = [])
    {actions : List Action} (hkeys : s.KeepsKeysApart actions) :
    s.gradientViews actions = s.gradientViews (actions.filter fun a => !a.submitsControl) := by
  simp only [Queue.tasks, List.append_eq_nil_iff] at hempty
  have hisolates : s.Isolates (gradientKeys actions) :=
    ⟨hs, by simp [hempty.2], by simp [hempty.1]⟩
  refine gradientViews_filter rfl hisolates hisolates fun a ha t hat => ⟨fun ht => ?_, ?_⟩
  · exact ⟨t, hat ▸ ha, ht, rfl⟩
  · rintro hconsults ht ⟨u, hu, hgradient, hkey⟩
    exact hkeys hconsults t u (hat ▸ ha) hu ht hgradient hkey.symm

end Session

/-- **Control traffic is inert.** Two runs of a push queue with a strategy that differ in their
controls alone hand the same gradients over at the same calls and show the same of them after each
step, if the table cannot take a control for a gradient; the submission of a control changes nothing
that is shown. Nor is a control ever held back: those that wait stand in the order of their
submissions, and a dispatch that hands no gradient over takes the first of them that is admitted. -/
theorem control_traffic_inert {config : QueueConfig} {role : Role} {s : Session}
    (hs : Queue.create .push config role = .ok s.queue) (hstrategy : config.strategy ≠ .plain)
    {actions actions' : List Action}
    (hsame : (actions.filter fun a => !a.submitsControl) =
      actions'.filter fun a => !a.submitsControl)
    (hkeys : s.KeepsKeysApart actions) (hkeys' : s.KeepsKeysApart actions') :
    s.gradientViews actions = s.gradientViews actions' ∧
    (∀ m ∈ s.history actions, m.action.submitsControl = true →
      m.after.queue.snapshot.gradientView = m.before.queue.snapshot.gradientView) ∧
    ∀ earlier : List Action,
      let now := s.after earlier
      let controls := (s.history earlier).filterMap Moment.submittedControl?
      ∃ waiting taken : List (Task × Nat),
        waiting.Sublist controls.zipIdx ∧ controls.zipIdx.Perm (waiting ++ taken) ∧
        ((s.history earlier).filterMap Moment.returnedControl? = taken.map fun e => e.1.released) ∧
        (now.dispatch.IsAnswered → Moment.returnedGradient? ⟨now, .dispatch⟩ = none →
          now.dispatch.result =
            .ok ((waiting.find? fun e => now.queue.admits now.readiness e.1).map
              fun e => e.1.released)) := by
  have hseparates := Queue.separates_of_create hs hstrategy
  have hempty := Queue.tasks_create hs
  refine ⟨?_, ?_, ?_⟩
  · rw [Session.gradientViews_eq_filter hseparates hempty hkeys, hsame,
      ← Session.gradientViews_eq_filter hseparates hempty hkeys']
  · rintro ⟨before, a⟩ - hcontrol
    obtain ⟨t, rfl, ht⟩ := Action.exists_of_submitsControl hcontrol
    exact Session.gradientView_congr (Session.gradientSide_submit_control ht ∅ before)
  · intro earlier now controls
    have hscanned : s.queue.scanned.tasks = [] := (List.append_eq_nil_iff.mp hempty).1
    obtain ⟨waiting, taken, hlines⟩ := Session.exists_lines hseparates hscanned earlier
    exact ⟨waiting, taken, hlines.inLine, hlines.accounted, hlines.returned, hlines.dispatch⟩

/-- A push queue under token replay that looks keys up in a table of single contributions. -/
def gatedReplay : Session where
  queue := .ofSchedule ⟨[-2, -1], -1, 2⟩ .boundary { rootDevice := true }
  readiness := { table := some { expected := 1 } }

/-- The gradient is not ready at first, and a control passes it by. -/
def passingRun : List Action :=
  [.submit { name := "fc_gradient", key := 2, priority := -2, len := 8 },
    .submit { name := "barrier", key := 9, priority := 0, len := 1 },
    .change (.contribute 9), .dispatch, .change (.contribute 2), .dispatch]

/-- The same without the control. -/
def quietRun : List Action :=
  [.submit { name := "fc_gradient", key := 2, priority := -2, len := 8 },
    .change (.contribute 9), .dispatch, .change (.contribute 2), .dispatch]

theorem control_traffic_inert_passingRun :
    Queue.create .push { strategy := .tokenReplay, schedule := some ⟨[-2, -1], -1, 2⟩ }
        { rootDevice := true } = .ok gatedReplay.queue ∧
      ((passingRun.filter fun a => !a.submitsControl) =
        quietRun.filter fun a => !a.submitsControl) ∧
      gatedReplay.KeepsKeysApart passingRun ∧ gatedReplay.KeepsKeysApart quietRun ∧
      gatedReplay.ConsultsTable ∧
      gatedReplay.gradientViews passingRun = gatedReplay.gradientViews quietRun ∧
      ((gatedReplay.history passingRun).filterMap Moment.returned?).map Task.key = [9, 2] ∧
      ((gatedReplay.history quietRun).filterMap Moment.returned?).map Task.key = [2] := by
  have hs : Queue.create .push { strategy := .tokenReplay, schedule := some ⟨[-2, -1], -1, 2⟩ }
      { rootDevice := true } = .ok gatedReplay.queue := by
    refine Queue.create_ofSchedule ?_ rfl rfl _
    decide +kernel
  have hsame : (passingRun.filter fun a => !a.submitsControl) =
      quietRun.filter fun a => !a.submitsControl := by decide +kernel
  have hkeys : gatedReplay.KeepsKeysApart passingRun := by
    rintro - t u ht hu hcontrol hgradient
    simp only [passingRun, List.mem_cons, Action.submit.injEq, reduceCtorEq, List.not_mem_nil,
      or_false] at ht hu
    revert hcontrol hgradient
    rcases ht with rfl | rfl <;> rcases hu with rfl | rfl <;> decide +kernel
  have hkeys' : gatedReplay.KeepsKeysApart quietRun := by
    rintro - t u ht hu hcontrol hgradient
    simp only [quietRun, List.mem_cons, Action.submit.injEq, reduceCtorEq, List.not_mem_nil,
      or_false] at ht hu
    rw [ht, ← hu, hgradient] at hcontrol
    cases hcontrol
  exact ⟨hs, hsame, hkeys, hkeys', ⟨rfl, nofun⟩,
    (control_traffic_inert hs (by decide) hsame hkeys hkeys').1, by decide +kernel,
    by decide +kernel⟩

end TensorDispatch
