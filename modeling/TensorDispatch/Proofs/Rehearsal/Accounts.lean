import TensorDispatch.Proofs.Conservation
import TensorDispatch.Proofs.Credit
import TensorDispatch.Proofs.Rehearsal.Iterations
import TensorDispatch.Proofs.Rehearsal.Record

/-!
# The accounts of a rehearsal

A rehearsal ends, and one that reports has left nothing behind, whatever the stage, the strategy
and the options are.

* `Performs.balance`, `Performs.counters` — what a list of deeds does to the tasks inside a queue
  and to its counters;
* `Performs.inFlight_eq_zero` — where everything that is taken is reported, no credit is in flight;
* `Settles` — an iteration in which every task is submitted, taken and reported. Each iteration that
  comes to its end is one (`settles_of_runIteration`, `runIterations_settles`), because it takes as
  many tasks as it submits, and none is made or lost in between;
* `rehearsal_accounts` — the poll loop and the report.
-/

namespace TensorDispatch

open scoped List

/-- Only an accepted report is counted as finished. -/
theorem Moment.finished_balance {m : Moment} (h : m.outcome.IsAnswered) :
    m.after.queue.stats.finished =
      m.before.queue.stats.finished + m.finished?.toList.length := by
  obtain ⟨s, a⟩ := m
  obtain ⟨answer, hanswer⟩ := h
  cases a with
  | submit t =>
    cases hresult : (s.queue.submit s.now t).result with
    | error f => simp [hresult, Except.map] at hanswer
    | ok u =>
      rw [queue_after_submit, ((s.queue.submit_spec s.now t).2 ⟨u, hresult⟩).2]
      rfl
  | dispatch =>
    obtain ⟨⟨scanned, policy, stats, hstate, hledger⟩, -⟩ := s.queue.choose_spec s.readiness s.now
    have hfinished := (Stats.eq_of_ledger hledger).2.2.1
    rcases s.dispatch_cases with
      ⟨f, q, -, hdispatch⟩ | ⟨q, hchoose, hdispatch⟩ |
        ⟨t, q, credit, s', hchoose, -, -, hdispatch, hq⟩
    · simp [hdispatch] at hanswer
    · rw [hchoose, Outcome.state_answered] at hstate
      rw [after, outcome_dispatch, hdispatch, Outcome.state_answered, hstate]
      exact hfinished
    · rw [hchoose, Outcome.state_answered] at hstate
      rw [after, outcome_dispatch, hdispatch, Outcome.state_answered, hq, hstate]
      exact hfinished
  | dispatchKey key =>
    rcases s.dispatchKey_cases key with
      ⟨f, scanned, -, hdispatch⟩ | hdispatch | ⟨t, scanned, s', hdispatch, -, -, -, hq⟩
    · simp [hdispatch] at hanswer
    · rw [after, outcome_dispatchKey, hdispatch]
      rfl
    · rw [after, outcome_dispatchKey, hdispatch, Outcome.state_answered, hq]
      rfl
  | finish len =>
    obtain ⟨credit, policy, hstate, -, -⟩ := s.queue.finish_spec len
    cases hresult : (s.queue.finish len).result with
    | error f => simp [hresult, Except.map] at hanswer
    | ok u =>
      have hfinished : finished? ⟨s, .finish len⟩ = some len := by
        simp [finished?, hresult, Except.map]
      rw [queue_after_finish, hstate, hfinished]
      rfl
  | change c =>
    rw [queue_after_change]
    rfl

namespace Rehearsal

/-! ### Deeds -/

variable {s s' : Session} {deeds : List Deed}

/-- A deed as a moment of its session. -/
theorem moment_of_act {s₁ : Session} {d : Deed} (h : s.act d.action = .answered d.taken? s₁) :
    let m : Moment := ⟨s, d.action⟩
    m.outcome.IsAnswered ∧ m.after = s₁ ∧ m.returned? = d.taken? ∧
      m.submitted? = d.submitted? ∧ m.finished? = d.reported?.map Task.len := by
  intro m
  have houtcome : m.outcome = .answered d.taken? s₁ := h
  have hresult : m.outcome.result = .ok d.taken? := by rw [houtcome, Outcome.result_answered]
  refine ⟨⟨_, hresult⟩, by rw [Moment.after, houtcome, Outcome.state_answered],
    by rw [Moment.returned?, hresult], ?_, ?_⟩
  · rw [Moment.submitted?, hresult]
    cases d <;> rfl
  · rw [Moment.finished?, hresult]
    cases d <;> rfl

theorem filterMap_cons_eq {α β : Type} (f : α → Option β) (a : α) (as : List α) :
    (a :: as).filterMap f = (f a).toList ++ as.filterMap f := by
  cases h : f a <;> simp [h]

namespace Performs

/-- No task is made or lost: what is submitted joins the queue, and what is taken leaves it. -/
theorem balance (h : Performs s deeds s') :
    ∃ raw : List Task, deeds.filterMap Deed.taken? = raw.map Task.released ∧
      deeds.filterMap Deed.submitted? ++ s.queue.tasks ~ s'.queue.tasks ++ raw := by
  induction h with
  | nil s => exact ⟨[], rfl, by simp⟩
  | @cons s s₁ s' d deeds hact _ ih =>
    obtain ⟨hanswered, hafter, hreturned, hsubmitted, -⟩ := moment_of_act hact
    obtain ⟨raw, hraw, hbalance⟩ := Moment.balance hanswered
    obtain ⟨later, hlater, hperm⟩ := ih
    have htasks := hbalance.tasks
    rw [hafter, hsubmitted] at htasks
    rw [hreturned] at hraw
    refine ⟨raw ++ later, ?_, ?_⟩
    · rw [filterMap_cons_eq, hraw, hlater, List.map_append]
    · rw [filterMap_cons_eq]
      calc (d.submitted?.toList ++ deeds.filterMap Deed.submitted?) ++ s.queue.tasks
        _ ~ deeds.filterMap Deed.submitted? ++ (d.submitted?.toList ++ s.queue.tasks) := by
          rw [← List.append_assoc]
          exact List.perm_append_comm.append_right _
        _ ~ deeds.filterMap Deed.submitted? ++ (s₁.queue.tasks ++ raw) := htasks.append_left _
        _ ~ (s'.queue.tasks ++ later) ++ raw := by
          rw [← List.append_assoc]
          exact hperm.append_right raw
        _ ~ s'.queue.tasks ++ (raw ++ later) := by
          rw [List.append_assoc]
          exact List.perm_append_comm.append_left _

/-- The counters count what is submitted, taken and reported. -/
theorem counters (h : Performs s deeds s') :
    s'.queue.stats.submitted =
        s.queue.stats.submitted + (deeds.filterMap Deed.submitted?).length ∧
      s'.queue.stats.dispatched =
        s.queue.stats.dispatched + (deeds.filterMap Deed.taken?).length ∧
      s'.queue.stats.finished =
        s.queue.stats.finished + (deeds.filterMap Deed.reported?).length := by
  induction h with
  | nil s => simp
  | @cons s s₁ s' d deeds hact _ ih =>
    obtain ⟨hanswered, hafter, hreturned, hsubmitted, hreported⟩ := moment_of_act hact
    obtain ⟨raw, hraw, hbalance⟩ := Moment.balance hanswered
    have hentered : s₁.queue.stats.submitted =
        s.queue.stats.submitted + d.submitted?.toList.length := by
      rw [← hafter, ← hsubmitted]
      exact hbalance.submitted
    have hleft : s₁.queue.stats.dispatched = s.queue.stats.dispatched + d.taken?.toList.length := by
      rw [← hafter, ← hreturned, hraw, List.length_map]
      exact hbalance.dispatched
    have hfinished : s₁.queue.stats.finished =
        s.queue.stats.finished + d.reported?.toList.length := by
      have hbytes : (d.reported?.map Task.len).toList.length = d.reported?.toList.length := by
        cases d.reported? <;> rfl
      rw [← hafter, ← hbytes, ← hreported]
      exact Moment.finished_balance hanswered
    simp only [filterMap_cons_eq, List.length_append]
    omega

/-- The history of some deeds shows what is taken and what is reported. -/
theorem history (h : Performs s deeds s') :
    (s.history (deeds.map Deed.action)).filterMap Moment.returned? =
        deeds.filterMap Deed.taken? ∧
      (s.history (deeds.map Deed.action)).filterMap Moment.finished? =
        (deeds.filterMap Deed.reported?).map Task.len := by
  induction h with
  | nil s => exact ⟨rfl, rfl⟩
  | @cons s s₁ s' d deeds hact _ ih =>
    obtain ⟨-, -, hreturned, -, hreported⟩ := moment_of_act hact
    have hhistory : s.history ((d :: deeds).map Deed.action) =
        ⟨s, d.action⟩ :: s₁.history (deeds.map Deed.action) := by
      rw [List.map_cons, Session.history, hact, Outcome.state_answered]
    rw [hhistory]
    constructor
    · rw [filterMap_cons_eq, filterMap_cons_eq, hreturned, ih.1]
    · rw [filterMap_cons_eq, filterMap_cons_eq, hreported, ih.2, List.map_append]
      cases d.reported? <;> rfl

/-- Where everything that is taken is reported, no credit is in flight in the end. -/
theorem inFlight_eq_zero {stage : Stage} {config : QueueConfig} {role : Role}
    (hs : Queue.create stage config role = .ok s.queue) (h : Performs s deeds s')
    (hreported : deeds.filterMap Deed.reported? = deeds.filterMap Deed.taken?) :
    s'.queue.credit.inFlight = 0 := by
  have hafter := h.after
  by_cases hmeters : config.Meters stage role
  · obtain ⟨hpolicy, hcredit⟩ := Queue.create_of_meters hs hmeters
    obtain ⟨available, inFlight, -, hcredit', -, hflight⟩ :=
      Session.accounts_after hpolicy hcredit (deeds.map Deed.action)
    obtain ⟨htaken, hfinished⟩ := h.history
    rw [hafter] at hcredit'
    rw [htaken, hfinished, hreported] at hflight
    rw [hcredit', Credit.inFlight]
    omega
  · have hcredit :=
      Session.unmetered_after (Queue.create_of_not_meters hs hmeters) (deeds.map Deed.action)
    rw [hafter] at hcredit
    rw [hcredit, Credit.inFlight]

end Performs

/-! ### Iterations -/

/-- In an iteration over some tasks, every task is submitted, taken and reported, once each. -/
structure Settles (tasks : List Task) (deeds : List Deed) : Prop where
  submitted : deeds.filterMap Deed.submitted? ~ tasks
  taken : deeds.filterMap Deed.taken? ~ tasks
  /-- Tasks are reported in the order in which they are taken. -/
  reported : deeds.filterMap Deed.reported? = deeds.filterMap Deed.taken?

variable {depth : Nat} {tasks : List Task}

/-- Tasks that wait for no flag are handed over as they are. -/
theorem map_released_of_unflagged (h : ∀ t ∈ tasks, t.flag = none) :
    tasks.map Task.released = tasks :=
  (List.map_congr_left fun t ht => Task.released_of_unflagged (h t ht)).trans (List.map_id tasks)

/-- An iteration that finds the queue empty and comes to its end leaves it empty. -/
theorem settles_of_runIteration {shuffled taken : List Task}
    (h : runIteration depth shuffled s = .ok (s', taken)) (hempty : s.queue.tasks = [])
    (hperm : shuffled ~ tasks) (hflags : ∀ t ∈ tasks, t.flag = none) :
    Settles tasks (iterationDeeds depth shuffled s) ∧ s'.queue.tasks = [] := by
  obtain ⟨hperforms, hsubmitted, htaken, hreported, hlength⟩ := performs_of_runIteration h
  obtain ⟨raw, hraw, hbalance⟩ := hperforms.balance
  rw [hsubmitted, hempty, List.append_nil] at hbalance
  rw [htaken] at hraw
  -- as many tasks are taken as are submitted, so none is left
  have hnone : s'.queue.tasks = [] := by
    have hcount := hbalance.length_eq
    rw [hraw, List.length_map] at hlength
    rw [List.length_append] at hcount
    exact List.eq_nil_of_length_eq_zero (by omega)
  rw [hnone, List.nil_append] at hbalance
  have hsame : taken = raw := by
    rw [hraw]
    refine map_released_of_unflagged fun t ht => hflags t ?_
    exact hperm.mem_iff.mp (hbalance.mem_iff.mpr ht)
  refine ⟨⟨?_, ?_, ?_⟩, hnone⟩
  · rw [hsubmitted]
    exact hperm
  · rw [htaken, hsame]
    exact hbalance.symm.trans hperm
  · rw [hreported, htaken]

/-- The emissions of some iterations, the first of them under a number, from their deeds. -/
def emissionsFrom (iteration : Nat) (record : List (List Deed)) : List Emission :=
  (record.zipIdx iteration).flatMap fun (deeds, k) => emissionsOf k (deeds.filterMap Deed.taken?)

theorem emissionsFrom_cons (iteration : Nat) (deeds : List Deed) (record : List (List Deed)) :
    emissionsFrom iteration (deeds :: record) =
      emissionsOf iteration (deeds.filterMap Deed.taken?) ++
        emissionsFrom (iteration + 1) record := by
  rw [emissionsFrom, List.zipIdx_cons, List.flatMap_cons, emissionsFrom]

/-- Iterations that come to their end have settled, and their emissions are what they have taken. -/
theorem runIterations_settles {remaining iteration : Nat} {g : Random.Generator}
    {emissions : List Emission}
    (h : runIterations depth tasks remaining iteration g s = .ok (emissions, s'))
    (hempty : s.queue.tasks = []) (hflags : ∀ t ∈ tasks, t.flag = none) :
    let record := recordIterations depth tasks remaining g s
    Performs s record.flatten s' ∧ record.length = remaining ∧
      (∀ deeds ∈ record, Settles tasks deeds) ∧ emissions = emissionsFrom iteration record ∧
      s'.queue.tasks = [] := by
  induction remaining generalizing iteration g s emissions with
  | zero =>
    cases h
    exact ⟨.nil _, rfl, by simp [recordIterations], rfl, hempty⟩
  | succ remaining ih =>
    obtain ⟨s₁, taken, later, hfirst, hlater, rfl, hrecord⟩ := runIterations_succ_eq_ok h
    obtain ⟨hperforms, -, htaken, -⟩ := performs_of_runIteration hfirst
    obtain ⟨hsettles, hempty₁⟩ :=
      settles_of_runIteration hfirst hempty (Random.shuffle_perm tasks g) hflags
    obtain ⟨hperforms', hlength, hall, rfl, hempty'⟩ := ih hlater hempty₁
    rw [hrecord]
    refine ⟨hperforms.append hperforms', ?_, ?_, ?_, hempty'⟩
    · rw [List.length_cons, hlength]
    · exact List.forall_mem_cons.mpr ⟨hsettles, hall⟩
    · rw [emissionsFrom_cons, htaken]

theorem iteration_of_mem_emissionsFrom {iteration : Nat} {record : List (List Deed)} {e : Emission}
    (h : e ∈ emissionsFrom iteration record) :
    iteration ≤ e.iteration ∧ e.iteration < iteration + record.length := by
  induction record generalizing iteration with
  | nil => simp [emissionsFrom] at h
  | cons deeds record ih =>
    rw [emissionsFrom_cons] at h
    rw [List.length_cons]
    rcases List.mem_append.mp h with h | h
    · have heq := iteration_of_mem_emissionsOf h
      omega
    · have hlater := ih h
      omega

/-- The emissions of one iteration are found by its number. -/
theorem filter_emissionsFrom {record : List (List Deed)} {k : Nat} (h : k < record.length)
    (iteration : Nat) :
    (emissionsFrom iteration record).filter (·.iteration == iteration + k) =
      emissionsOf (iteration + k) (record[k].filterMap Deed.taken?) := by
  induction record generalizing iteration k with
  | nil => simp at h
  | cons deeds record ih =>
    rw [emissionsFrom_cons, List.filter_append]
    cases k with
    | zero =>
      have hown : ∀ e ∈ emissionsOf iteration (deeds.filterMap Deed.taken?),
          (e.iteration == iteration) = true := by
        intro e he
        simp [iteration_of_mem_emissionsOf he]
      have hlater : ∀ e ∈ emissionsFrom (iteration + 1) record,
          ¬ (e.iteration == iteration) = true := by
        intro e he heq
        have hbound := (iteration_of_mem_emissionsFrom he).1
        rw [beq_iff_eq] at heq
        omega
      rw [Nat.add_zero, List.filter_eq_self.mpr hown, List.filter_eq_nil_iff.mpr hlater,
        List.append_nil, List.getElem_cons_zero]
    | succ k =>
      have hearlier : ∀ e ∈ emissionsOf iteration (deeds.filterMap Deed.taken?),
          ¬ (e.iteration == iteration + (k + 1)) = true := by
        intro e he heq
        rw [iteration_of_mem_emissionsOf he, beq_iff_eq] at heq
        omega
      have hlater := ih (Nat.lt_of_succ_lt_succ h) (iteration + 1)
      rw [Nat.add_assoc, Nat.add_comm 1] at hlater
      rw [List.filter_eq_nil_iff.mpr hearlier, List.nil_append, hlater, List.getElem_cons_succ]

/-- Emissions are numbered in their order. -/
theorem map_seq_emissionsOf (iteration : Nat) (tasks : List Task) :
    (emissionsOf iteration tasks).map (·.seq) = List.range tasks.length := by
  rw [emissionsOf, List.map_map, List.range_eq_range', ← List.zipIdx_map_snd 0 tasks]
  rfl

/-- Each emission tells its task. -/
theorem map_fields_emissionsOf (iteration : Nat) (tasks : List Task) :
    (emissionsOf iteration tasks).map (fun e => (e.name, e.key, e.priority, e.partition)) =
      tasks.map fun t => (t.name, t.key, t.priority, partitionOfKey t.key) :=
  map_emissionsOf_eq (fun _ _ => rfl) tasks

/-! ### Rehearsals -/

/-- No synthetic task waits for a flag. -/
theorem flag_of_mem_synthesize {priorities : List Int} {partitions len : Nat}
    {beginName : Option String} {t : Task}
    (h : t ∈ synthesize priorities partitions len beginName) : t.flag = none :=
  (uniform_of_mem_synthesize h).1

section

variable {record : List (List Deed)}

theorem length_filterMap_flatten {f : Deed → Option Task} {n : Nat}
    (h : ∀ deeds ∈ record, (deeds.filterMap f).length = n) :
    (record.flatten.filterMap f).length = record.length * n := by
  induction record with
  | nil => simp
  | cons deeds record ih =>
    obtain ⟨hfirst, hlater⟩ := List.forall_mem_cons.mp h
    rw [List.flatten_cons, List.filterMap_append, List.length_append, hfirst, ih hlater,
      List.length_cons, Nat.succ_mul, Nat.add_comm]

/-- Where every iteration settles, everything that is taken is reported. -/
theorem reported_flatten (h : ∀ deeds ∈ record, Settles tasks deeds) :
    record.flatten.filterMap Deed.reported? = record.flatten.filterMap Deed.taken? := by
  rw [List.filterMap_flatten, List.filterMap_flatten,
    List.map_congr_left fun deeds hdeeds => (h deeds hdeeds).reported]

/-- Where every iteration settles, each of the counters of a fresh queue comes to the tasks of all
iterations. -/
theorem counters_of_settles (hperforms : Performs s record.flatten s')
    (hstats : s.queue.stats = {}) (h : ∀ deeds ∈ record, Settles tasks deeds) :
    s'.queue.stats.submitted = record.length * tasks.length ∧
      s'.queue.stats.dispatched = record.length * tasks.length ∧
      s'.queue.stats.finished = record.length * tasks.length := by
  have hsubmitted := length_filterMap_flatten fun deeds hd => (h deeds hd).submitted.length_eq
  have htaken := length_filterMap_flatten fun deeds hd => (h deeds hd).taken.length_eq
  have hcounters := hperforms.counters
  rw [reported_flatten h, hsubmitted, htaken, hstats] at hcounters
  simpa using hcounters

end

/-- The iterations of a rehearsal that reports have settled. -/
theorem run_settles {config : Config} {options : Options} {report : Report}
    (h : run config options = .ok report) :
    ∃ queue priorities s,
      Queue.create options.stage config.queue config.role = .ok queue ∧
      tensorPriorities config.queue options.tensors = .ok priorities ∧
      Performs { queue } (record config options).flatten s ∧
      report.state = s.queue.snapshot ∧
      (record config options).length = options.iterations ∧
      (∀ deeds ∈ record config options, Settles
        (synthesize priorities options.partitions options.len config.queue.beginName) deeds) ∧
      report.emissions = emissionsFrom 0 (record config options) ∧ s.queue.tasks = [] := by
  obtain ⟨queue, priorities, s, hcreate, hpriorities, hruns, hstate⟩ := run_eq_ok h
  have hempty : queue.tasks = [] := Queue.tasks_create hcreate
  obtain ⟨hperforms, hlength, hsettles, hemissions, hleft⟩ :=
    runIterations_settles hruns hempty fun _ => flag_of_mem_synthesize
  have hrecord : record config options = recordIterations (max 1 options.depth)
      (synthesize priorities options.partitions options.len config.queue.beginName)
      options.iterations (.ofSeed options.seed) { queue } := by
    simp only [record, hcreate, hpriorities]
  rw [hrecord]
  exact ⟨queue, priorities, s, hcreate, hpriorities, hperforms, hstate, hlength, hsettles,
    hemissions, hleft⟩

/-- **Accounts of a rehearsal.** The poll loop of an iteration ends within 100003 polls for each of
its tasks, whatever the session is. If the rehearsal reports, it has gone through its record, and in
every iteration of it each synthetic task is submitted, taken and reported, once each; the emissions
are what the iterations have taken, numbered in their order. In the end the queue is idle, no credit
is in flight, and every counter shows the tasks of all iterations. -/
theorem rehearsal_accounts (config : Config) (options : Options) :
    (∀ (tasks : List Task) (s : Session),
      Worker.workWithin tasks.length (max 1 options.depth) (100003 * tasks.length)
          { session := s } =
        some (Worker.work tasks.length (max 1 options.depth) { session := s })) ∧
    ∀ report, run config options = .ok report →
      ∃ queue priorities s,
        Queue.create options.stage config.queue config.role = .ok queue ∧
        tensorPriorities config.queue options.tensors = .ok priorities ∧
        let tasks := synthesize priorities options.partitions options.len config.queue.beginName
        Performs { queue } (record config options).flatten s ∧
        report.state = s.queue.snapshot ∧
        (record config options).length = options.iterations ∧
        (∀ deeds ∈ record config options, Settles tasks deeds) ∧
        report.emissions = emissionsFrom 0 (record config options) ∧
        (∀ iteration < options.iterations,
          let emissions := report.emissions.filter (·.iteration == iteration)
          emissions.map (·.seq) = List.range tasks.length ∧
          emissions.map (fun e => (e.name, e.key, e.priority, e.partition)) ~
            tasks.map fun t => (t.name, t.key, t.priority, partitionOfKey t.key)) ∧
        (∀ e ∈ report.emissions, e.iteration < options.iterations) ∧
        report.state.isIdle = true ∧ report.state.creditsInFlight = 0 ∧
        report.state.stats.submitted = options.iterations * tasks.length ∧
        report.state.stats.dispatched = options.iterations * tasks.length ∧
        report.state.stats.finished = options.iterations * tasks.length := by
  constructor
  · intro tasks s
    refine Worker.workWithin_eq_work (Nat.zero_le _) ?_
    calc Worker.pollsAhead tasks.length { session := s }
      _ ≤ (idleLimit + 2) * tasks.length := Worker.pollsAhead_start tasks.length s
      _ ≤ 100003 * tasks.length := Nat.mul_le_mul_right _ (by decide)
  · intro report hrun
    obtain ⟨queue, priorities, s, hcreate, hpriorities, hperforms, hstate, hlength, hsettles,
      hemissions, hleft⟩ := run_settles hrun
    have hstats : ({ queue } : Session).queue.stats = {} := by
      rw [(Queue.create_eq_ok hcreate).2.2]
    obtain ⟨hsubmitted, hdispatched, hfinished⟩ := counters_of_settles hperforms hstats hsettles
    rw [hlength] at hsubmitted hdispatched hfinished
    refine ⟨queue, priorities, s, hcreate, hpriorities, hperforms, hstate, hlength, hsettles,
      hemissions, ?_, ?_, ?_, ?_, ?_⟩
    · intro iteration hiteration
      have hk : iteration < (record config options).length := hlength ▸ hiteration
      have hfilter := filter_emissionsFrom hk 0
      rw [Nat.zero_add, ← hemissions] at hfilter
      have htaken := (hsettles _ (List.getElem_mem hk)).taken
      simp only [hfilter]
      constructor
      · rw [map_seq_emissionsOf, htaken.length_eq]
      · rw [map_fields_emissionsOf]
        exact htaken.map _
    · intro e he
      rw [hemissions] at he
      have hbound := (iteration_of_mem_emissionsFrom he).2
      omega
    · rw [hstate, Queue.isIdle_snapshot_iff, ← Queue.length_tasks, hleft, List.length_nil]
    · rw [hstate]
      exact hperforms.inFlight_eq_zero hcreate (reported_flatten hsettles)
    · rw [hstate]
      exact ⟨hsubmitted, hdispatched, hfinished⟩

theorem rehearsal_accounts_repeatedRun :
    ∃ report, run repeatedConfig repeatedOptions = .ok report ∧ report.state.isIdle = true ∧
      report.state.stats.finished = 24 ∧
      (report.emissions.filter (·.iteration == 1)).map (·.seq) = List.range 8 := by
  have hline : Schedule.LinesUp ⟨[-2, -1, -2], -1, 4⟩ [-3]
      (tensorLine 2 1024 (some "fc") ([-2, -1, -2] ++ [-3])) :=
    linesUp_tensorLine (by decide) rfl (by decide) (by decide) (by decide) (by decide) _ _
  have htasks := synthesize_eq 2 1024 (some "fc") ([-2, -1, -2] ++ [-3])
  have hsound : Door.Sound (.counted 2) := by decide
  obtain ⟨s, r, hruns, -⟩ :=
    (Rehearsed.start hline hsound repeatedConfig.role).exists_runIterations
      (fun t ht => gradient_of_mem_synthesize (htasks ▸ ht)) 3 3 (.ofSeed 7)
  rw [← htasks] at hruns
  have hrun : run repeatedConfig repeatedOptions = .ok _ :=
    run_of_parts (Queue.create_ofSchedule rfl rfl rfl _) rfl
      (checkedTasks_of_le (by decide) _ _ _) hruns
  obtain ⟨queue, priorities, s', -, hpriorities, -, -, -, -, -, hemissions, -, hidle, -, -, -,
    hfinished⟩ := (rehearsal_accounts repeatedConfig repeatedOptions).2 _ hrun
  have heq : tensorPriorities repeatedConfig.queue repeatedOptions.tensors =
      .ok [-2, -1, -2, -3] := by rfl
  cases heq.symm.trans hpriorities
  exact ⟨_, hrun, hidle, hfinished, (hemissions 1 (by decide)).1⟩

end Rehearsal

end TensorDispatch
