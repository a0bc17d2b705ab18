import TensorDispatch.Proofs.Rehearsal.Tensors
import TensorDispatch.Proofs.Rehearsal.Worker

/-!
# Rehearsals of a schedule

A rehearsal of token replay emits the synthetic tensors of every iteration in the order of the
schedule.

* `Rehearsed` — the invariant between two iterations: the queue rests, and all passes but the last
  have rolled over. `Rehearsed.exists_runIteration` is one iteration, whatever the order of its
  submissions, and `Rehearsed.exists_runIterations` all of them;
* `run_replays_schedule` — the report of a whole rehearsal.
-/

namespace TensorDispatch.Rehearsal

open Worker (OnLine)

/-! ### Iterations -/

/-- A session that has rehearsed some iterations over a line of tensors, and rests. -/
structure Rehearsed (fillers : List Int) (line : List Tensor) (iterations : Nat) (s : Session)
    (r : Replay) : Prop where
  rehearses : s.Rehearses r
  rests : r.Rests
  line : r.schedule.LinesUp fillers line
  /-- The pass of the last iteration is complete, and still has to roll over. -/
  rollsOver : r.RollsOver ↔ 0 < iterations
  iterations : s.queue.stats.iterations = iterations - 1
  submitted : s.queue.stats.submitted = s.queue.stats.dispatched
  dispatched : s.queue.stats.dispatched = s.queue.stats.finished

namespace Rehearsed

variable {fillers : List Int} {line : List Tensor} {iterations : Nat} {s : Session} {r : Replay}
  {tasks : List Task}

/-- Once all tasks of the line are submitted, the first turn of a worker starts a pass over it. -/
theorem exists_first_turn (h : Rehearsed fillers line iterations s r)
    (hperm : tasks.Perm (Tensor.partsOf line))
    (hgradients : ∀ t ∈ tasks, t.name.isEmpty = false ∧ t.isGradient = true) (depth : Nat) :
    ∃ s' w r' consumed rest, submitAll s tasks = .ok s' ∧
      Worker.turn depth { session := s' } = .ok w ∧
      OnLine fillers line iterations w r' consumed rest := by
  have hpending : r.pending = { ordered := true } := h.rests.pending
  have hkeys : (r.pending.tasks ++ tasks).Pairwise fun t u => t.key ≠ u.key := by
    rw [hpending]
    exact hperm.symm.pairwise (h.line.ascending.imp Nat.ne_of_lt) fun hne => hne.symm
  obtain ⟨s', pending, hsubmit, hrehearses, hordered, hsorted, hwaiting, peak, hstats⟩ :=
    h.rehearses.submitAll (by rw [hpending]) (by rw [hpending]; exact .nil) hgradients hkeys
  have hwaiting : pending.tasks.Perm (Tensor.partsOf line) := by
    rw [hpending] at hwaiting
    exact hwaiting.trans hperm
  have hsubmitted : s'.queue.stats.submitted =
      s'.queue.stats.dispatched + (Tensor.partsOf line).length := by
    rw [hstats, ← hperm.length_eq, ← h.submitted]
  have hdispatched : s'.queue.stats.dispatched = s'.queue.stats.finished := by
    rw [hstats]
    exact h.dispatched
  obtain ⟨w, r', consumed, rest, hturn, honline⟩ := Worker.exists_first_turn hrehearses
    (h.rests.follows h.line hordered hsorted hwaiting) h.rests.staged h.rests.isOpen
    hsubmitted hdispatched h.line.length_partsOf_pos depth
  have hiterations : (if Replay.RollsOver { r with pending } then s'.queue.stats.iterations + 1
      else s'.queue.stats.iterations) = iterations := by
    have hrollsOver : Replay.RollsOver { r with pending } ↔ 0 < iterations := h.rollsOver
    have hbefore : s'.queue.stats.iterations = iterations - 1 := by rw [hstats, h.iterations]
    simp only [hrollsOver, hbefore]
    split <;> omega
  exact ⟨s', w, r', consumed, rest, hsubmit, hturn, hiterations ▸ honline⟩

/-- One more iteration takes the partitions of the line in its order, whatever the order of their
submission. -/
theorem exists_runIteration (h : Rehearsed fillers line iterations s r)
    (hperm : tasks.Perm (Tensor.partsOf line))
    (hgradients : ∀ t ∈ tasks, t.name.isEmpty = false ∧ t.isGradient = true) (depth : Nat) :
    ∃ s' r', runIteration depth tasks s = .ok (s', Tensor.partsOf line) ∧
      Rehearsed fillers line (iterations + 1) s' r' := by
  obtain ⟨s₁, w₁, r₁, consumed, rest, hsubmit, hturn, h₁⟩ :=
    h.exists_first_turn hperm hgradients depth
  obtain ⟨w₂, r₂, consumed, rest, hrest, h₂, hall⟩ := Worker.exists_work h₁ depth
  have hwork : Worker.work tasks.length depth { session := s₁ } = .ok w₂ := by
    rw [hperm.length_eq, Worker.work_of_turn h.line.length_partsOf_pos hturn, hrest]
  obtain ⟨s', inFlight, r', hfinish, hflight, h'⟩ := h₂.finishBeyond 0
  obtain ⟨rfl, rfl, hempty, htaken⟩ := h'.complete hall
  -- nothing is in flight any more, so the door is open
  have hflight : inFlight = [] := List.eq_nil_of_length_eq_zero (Nat.le_zero.mp hflight)
  have hopen : 0 < r'.permits := Nat.pos_of_ne_zero fun hzero => h'.closed hzero hflight
  obtain ⟨hroll, hrests⟩ := h'.follows.rests hempty hopen
  refine ⟨s', r', ?_, {
    rehearses := h'.rehearses
    rests := hrests
    line := by simpa using h'.follows.line
    rollsOver := ⟨fun _ => Nat.succ_pos _, fun _ => hroll⟩
    iterations := h'.iterations
    submitted := by simpa [hempty] using h'.submitted
    dispatched := by simpa [hflight] using h'.dispatched }⟩
  have htaken : w₂.emitted.toList = _ := htaken
  rw [runIteration, hsubmit]
  simp only [bind, Except.bind, hwork, hfinish, htaken]
  rfl

/-- Each of the next iterations takes the partitions of the line in its order. -/
theorem exists_runIterations (h : Rehearsed fillers line iterations s r)
    (hgradients : ∀ t ∈ Tensor.partsOf line, t.name.isEmpty = false ∧ t.isGradient = true)
    (depth remaining : Nat) (g : Random.Generator) :
    ∃ s' r', runIterations depth (Tensor.partsOf line) remaining iterations g s =
        .ok ((List.range' iterations remaining).flatMap fun iteration =>
          emissionsOf iteration (Tensor.partsOf line), s') ∧
      Rehearsed fillers line (iterations + remaining) s' r' := by
  induction remaining generalizing iterations s r g with
  | zero => exact ⟨s, r, rfl, h⟩
  | succ remaining ih =>
    have hperm := Random.shuffle_perm (Tensor.partsOf line) g
    obtain ⟨s₁, r₁, hfirst, h₁⟩ := h.exists_runIteration hperm
      (fun t ht => hgradients t (hperm.mem_iff.mp ht)) depth
    obtain ⟨s', r', hlater, h'⟩ := ih h₁ (Random.shuffle (Tensor.partsOf line) g).2
    refine ⟨s', r', ?_, ?_⟩
    · simp only [runIterations, hfirst, bind, Except.bind, hlater, List.range'_succ,
        List.flatMap_cons]
      rfl
    · rw [Nat.add_assoc, Nat.add_comm 1] at h'
      exact h'

/-- A fresh queue has rehearsed nothing. -/
theorem start {schedule : Schedule} {door : Door} (hline : schedule.LinesUp fillers line)
    (hdoor : door.Sound) (role : Role) :
    Rehearsed fillers line 0 { queue := .ofSchedule schedule door role }
      (.start schedule door) := by
  have htokens : schedule.tokens ≠ [] := List.ne_nil_of_mem hline.boundary
  exact {
    rehearses := ⟨rfl, rfl, rfl, rfl⟩
    rests := Replay.Rests.start htokens hdoor
    line := hline
    rollsOver := ⟨fun hroll => absurd hroll.2.1 htokens, fun h => absurd h (Nat.lt_irrefl 0)⟩
    iterations := rfl
    submitted := rfl
    dispatched := rfl }

/-- Between two iterations the queue is idle. -/
theorem isIdle (h : Rehearsed fillers line iterations s r) : s.queue.snapshot.isIdle = true := by
  rw [Queue.isIdle_snapshot_iff, ← Queue.length_tasks, Queue.tasks, h.rehearses.scanned,
    h.rehearses.policy, Policy.tasks, Policy.pendingTasks, Policy.stagedTasks, h.rests.pending,
    h.rests.staged]
  rfl

end Rehearsed

/-! ### Emissions -/

theorem iteration_of_mem_emissionsOf {iteration : Nat} {tasks : List Task} {e : Emission}
    (h : e ∈ emissionsOf iteration tasks) : e.iteration = iteration := by
  obtain ⟨⟨t, seq⟩, -, rfl⟩ := List.mem_map.mp h
  rfl

/-- What is told of an emission, but not of its place, is told of its task. -/
theorem map_emissionsOf_eq {α : Type} {iteration : Nat} {f : Emission → α} {g : Task → α}
    (h : ∀ (t : Task) (seq : Nat),
      f { iteration, seq, name := t.name, key := t.key, priority := t.priority
          partition := partitionOfKey t.key } = g t) (tasks : List Task) :
    (emissionsOf iteration tasks).map f = tasks.map g := by
  calc (emissionsOf iteration tasks).map f
    _ = tasks.zipIdx.map (g ∘ Prod.fst) := by
      rw [emissionsOf, List.map_map]
      exact List.map_congr_left fun p _ => h p.1 p.2
    _ = tasks.map g := by rw [← List.map_map, List.zipIdx_map_fst]

/-- Each emission tells the name, the key and the priority of its task. -/
theorem map_emissionsOf (iteration : Nat) (tasks : List Task) :
    (emissionsOf iteration tasks).map (fun e => (e.name, e.key, e.priority)) =
      tasks.map fun t => (t.name, t.key, t.priority) :=
  map_emissionsOf_eq (fun _ _ => rfl) tasks

/-- Among the emissions of all iterations, those of one are found by its number. -/
theorem filter_emissions (taken : Nat → List Task) {iteration iterations : Nat}
    (h : iteration < iterations) :
    ((List.range iterations).flatMap fun k => emissionsOf k (taken k)).filter
        (·.iteration == iteration) = emissionsOf iteration (taken iteration) := by
  obtain ⟨earlier, later, hsplit⟩ := List.append_of_mem (List.mem_range.mpr h)
  have hnodup : (earlier ++ iteration :: later).Nodup := hsplit ▸ List.nodup_range
  obtain ⟨hfresh, -⟩ := List.nodup_cons.mp (List.perm_middle.nodup_iff.mp hnodup)
  have hown : (emissionsOf iteration (taken iteration)).filter (·.iteration == iteration) =
      emissionsOf iteration (taken iteration) :=
    List.filter_eq_self.mpr fun e he => by simp [iteration_of_mem_emissionsOf he]
  have hothers : ∀ ks : List Nat, iteration ∉ ks →
      (ks.flatMap fun k => emissionsOf k (taken k)).filter (·.iteration == iteration) = [] := by
    intro ks hks
    refine List.filter_eq_nil_iff.mpr fun e he heq => hks ?_
    obtain ⟨k, hk, hek⟩ := List.mem_flatMap.mp he
    rwa [← beq_iff_eq.mp heq, iteration_of_mem_emissionsOf hek]
  rw [hsplit, List.flatMap_append, List.flatMap_cons, List.filter_append, List.filter_append,
    hothers earlier fun hmem => hfresh (List.mem_append_left _ hmem), hown,
    hothers later fun hmem => hfresh (List.mem_append_right _ hmem), List.nil_append,
    List.append_nil]

/-! ### Reports -/

/-- A rehearsal that comes to its iterations ends as they do. -/
theorem run_eq_map {config : Config} {options : Options} {q : Queue} {priorities : List Int}
    {tasks : List Task}
    (hcreate : Queue.create options.stage config.queue config.role = .ok q)
    (hpriorities : tensorPriorities config.queue options.tensors = .ok priorities)
    (htasks : checkedTasks priorities options.partitions options.len config.queue.beginName =
      .ok tasks) :
    run config options =
      (runIterations (max 1 options.depth) tasks options.iterations 0 (.ofSeed options.seed)
        { queue := q }).map fun (emissions, s) => { emissions, state := s.queue.snapshot } := by
  simp only [run, hcreate, hpriorities, htasks, Except.mapError, bind, Except.bind]
  cases options.iterations with
  -- without iterations no tasks are looked at
  | zero => rfl
  | succ n =>
    rw [if_neg (Nat.succ_ne_zero n)]
    cases runIterations (max 1 options.depth) tasks (n + 1) 0 (.ofSeed options.seed)
      { queue := q } <;> rfl

/-- A rehearsal whose parts succeed reports what its iterations emit. -/
theorem run_of_parts {config : Config} {options : Options} {q : Queue} {priorities : List Int}
    {tasks : List Task} {emissions : List Emission} {s : Session}
    (hcreate : Queue.create options.stage config.queue config.role = .ok q)
    (hpriorities : tensorPriorities config.queue options.tensors = .ok priorities)
    (htasks : checkedTasks priorities options.partitions options.len config.queue.beginName =
      .ok tasks)
    (hruns : runIterations (max 1 options.depth) tasks options.iterations 0
      (.ofSeed options.seed) { queue := q } = .ok (emissions, s)) :
    run config options = .ok { emissions, state := s.queue.snapshot } := by
  rw [run_eq_map hcreate hpriorities htasks, hruns]
  rfl

/-- **End-to-end replay.** A rehearsal of token replay reports if a completion opens its door, and
if the keys and the priorities of its tensors keep to their ranges. Each iteration emits the
synthetic tasks in their own order, whatever the seed and the number of tasks in flight. In the end
the queue is idle, everything submitted has been dispatched and finished, and every iteration but
the last has rolled over. -/
theorem run_replays_schedule (config : Config) (options : Options) {schedule : Schedule}
    (hvalid : config.queue.validate = .ok ()) (hstrategy : config.queue.strategy = .tokenReplay)
    (hschedule : config.queue.schedule = some schedule) (hdoor : config.queue.door.Sound)
    (htotal : schedule.totalTensors ≤ tensorBound)
    (hlow : ∀ p ∈ schedule.tokens,
      IsSigned (p - (schedule.totalTensors - schedule.tokens.length : Nat)))
    (hstage : options.stage = .push) (hpartitions : options.partitions ≤ partitionBound) :
    ∃ priorities report, tensorPriorities config.queue options.tensors = .ok priorities ∧
      run config options = .ok report ∧
      (∀ iteration < options.iterations,
        (report.emissions.filter (·.iteration == iteration)).map
            (fun e => (e.name, e.key, e.priority)) =
          (synthesize priorities options.partitions options.len config.queue.beginName).map
            fun t => (t.name, t.key, t.priority)) ∧
      (∀ e ∈ report.emissions, e.iteration < options.iterations) ∧
      report.state.isIdle = true ∧
      report.state.stats.submitted = report.state.stats.dispatched ∧
      report.state.stats.dispatched = report.state.stats.finished ∧
      report.state.stats.iterations = options.iterations - 1 := by
  obtain ⟨schedule', hschedule', husable⟩ := QueueConfig.exists_schedule hvalid hstrategy
  cases hschedule'.symm.trans hschedule
  obtain ⟨htokens, hcount, hboundary⟩ := Schedule.validate_eq_ok_iff.mp husable
  obtain ⟨fillers, hpriorities, hlength, hunnamed, hdescending⟩ :=
    tensorPriorities_of_schedule hschedule htokens hcount htotal hlow options.tensors
  have hline := linesUp_tensorLine hboundary hlength htotal hunnamed hdescending hpartitions
    options.len config.queue.beginName
  have htasks := synthesize_eq options.partitions options.len config.queue.beginName
    (schedule.tokens ++ fillers)
  obtain ⟨s, r, hruns, hend⟩ := (Rehearsed.start hline hdoor config.role).exists_runIterations
    (fun t ht => gradient_of_mem_synthesize (htasks ▸ ht)) (max 1 options.depth)
    options.iterations (.ofSeed options.seed)
  rw [← htasks, ← List.range_eq_range'] at hruns
  have hrun := run_of_parts
    (by rw [hstage]; exact Queue.create_ofSchedule hvalid hstrategy hschedule config.role)
    hpriorities (checkedTasks_of_le hpartitions _ _ _) hruns
  refine ⟨_, _, hpriorities, hrun, ?_, ?_, hend.isIdle, hend.submitted, hend.dispatched, ?_⟩
  · intro iteration hlt
    rw [filter_emissions _ hlt, map_emissionsOf]
  · intro e he
    obtain ⟨k, hk, hek⟩ := List.mem_flatMap.mp he
    rw [iteration_of_mem_emissionsOf hek]
    exact List.mem_range.mp hk
  · have hiterations := hend.iterations
    rw [Nat.zero_add] at hiterations
    exact hiterations

/-- A schedule that names one tensor twice and leaves another one out, behind a counted door. -/
def repeatedConfig : Config where
  queue :=
    { strategy := .tokenReplay
      beginName := some "fc"
      schedule := some ⟨[-2, -1, -2], -1, 4⟩
      door := .counted 2 }
  role := { rootDevice := true }

/-- Three iterations of two partitions each. -/
def repeatedOptions : Options := { iterations := 3, partitions := 2, depth := 3, seed := 7 }

theorem run_replays_schedule_repeatedRun :
    ∃ report, run repeatedConfig repeatedOptions = .ok report ∧
      (report.emissions.filter (·.iteration == 2)).map (fun e => (e.name, e.key, e.priority)) =
        [("fc_gradient", 0, -2), ("fc_gradient", 1, -2), ("tensor1_gradient", 0x10000, -1),
          ("tensor1_gradient", 0x10001, -1), ("tensor2_gradient", 0x20000, -2),
          ("tensor2_gradient", 0x20001, -2), ("tensor3_gradient", 0x30000, -3),
          ("tensor3_gradient", 0x30001, -3)] ∧
      report.state.isIdle = true ∧ report.state.stats.iterations = 2 := by
  obtain ⟨priorities, report, hpriorities, hrun, hemissions, -, hidle, -, -, hiterations⟩ :=
    run_replays_schedule repeatedConfig repeatedOptions rfl rfl rfl (by decide) (by decide)
      (by decide) rfl (by decide)
  have heq : tensorPriorities repeatedConfig.queue repeatedOptions.tensors =
      .ok [-2, -1, -2, -3] := by rfl
  cases heq.symm.trans hpriorities
  refine ⟨report, hrun, ?_, hidle, hiterations⟩
  rw [hemissions 2 (by decide)]
  decide +kernel

end TensorDispatch.Rehearsal
