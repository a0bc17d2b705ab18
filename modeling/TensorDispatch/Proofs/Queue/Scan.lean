import TensorDispatch.Proofs.Admission
import TensorDispatch.Proofs.Credit
import TensorDispatch.Proofs.Queue.Numbering

/-!
# Scans

A queue without a policy scans its tasks in the order in which they wait, and the first one that is
admitted leaves.

* `Session.dispatch_of_first`, `Session.dispatch_of_none` — the two ends of a scan. Over a numbered
  store, it ends at the least admitted task (`Session.dispatch_of_numbered`);
* `Session.plain_after`, `Session.isMetered_after_iff`, `Session.ordered_after` — without a policy
  there never is one, and a queue is metered, and orders its tasks, from its creation on or never;
* `plain_dispatch_least` — a dispatch hands over the least of the admissible tasks, or changes
  nothing.
-/

namespace TensorDispatch

open scoped List

/-! ### The two ends of a scan -/

/-- A scan that finds no admitted task changes nothing. -/
theorem Queue.chooseScanned_of_none {q : Queue} {readiness : Readiness}
    (h : ∀ t ∈ q.scanned.tasks, q.admits readiness t = false) :
    q.chooseScanned readiness = (none, q) := by
  have hfound : q.scanned.tasks.find? (q.admits readiness) = none := by simpa using h
  simp [chooseScanned, Pending.takeFirst?, hfound]

namespace Session

variable {s : Session}

/-- Without a policy, the first admitted task leaves, and the others keep their order. -/
theorem dispatch_of_first (hplain : s.queue.policy = .plain) {t : Task} {before behind : List Task}
    (htasks : s.queue.scanned.tasks = before ++ t :: behind)
    (hbefore : ∀ u ∈ before, s.queue.admits s.readiness u = false)
    (hadmits : s.queue.admits s.readiness t = true) :
    ∃ credit s', s.queue.credit.acquire t.len = .ok credit ∧
      s.dispatch = .answered (some t.released) s' ∧
      s'.queue =
        { s.queue with
          scanned := { s.queue.scanned with tasks := before ++ behind }
          credit
          stats := s.queue.stats.countDispatched } := by
  have hfound : s.queue.scanned.tasks.find? (s.queue.admits s.readiness) = some t := by
    rw [htasks, List.find?_eq_some_iff_append]
    exact ⟨hadmits, before, behind, rfl, by simpa using hbefore⟩
  have herase : s.queue.scanned.tasks.eraseP (s.queue.admits s.readiness) = before ++ behind := by
    rw [htasks, List.eraseP_append_right _ (by simpa using hbefore), List.eraseP_cons_of_pos hadmits]
  have hchoose := Queue.choose_plain hplain s.readiness s.now
  rw [Queue.chooseScanned_eq, hfound, herase] at hchoose
  rcases s.dispatch_cases with
    ⟨f, q, hrefused, -⟩ | ⟨q, hnone, -⟩ | ⟨u, q, credit, s', hsome, -, hacquire, hdispatch, hq⟩
  · cases hchoose.symm.trans hrefused
  · cases hchoose.symm.trans hnone
  · cases hchoose.symm.trans hsome
    exact ⟨credit, s', hacquire, hdispatch, hq⟩

/-- Without a policy, a dispatch that finds no admitted task changes nothing. -/
theorem dispatch_of_none (hplain : s.queue.policy = .plain)
    (hnone : ∀ t ∈ s.queue.scanned.tasks, s.queue.admits s.readiness t = false) :
    s.dispatch = .answered none s := by
  have hchoose := Queue.choose_plain hplain s.readiness s.now
  rw [Queue.chooseScanned_of_none hnone] at hchoose
  rw [dispatch, hchoose]
  rfl

/-- Without a policy, a dispatch hands over the least admitted task of a numbered store, and the
others keep their numbers. Where it hands over none, none is admitted, and nothing changes. -/
theorem dispatch_of_numbered (hplain : s.queue.policy = .plain) {waiting : List (Task × Nat)}
    (h : s.queue.scanned.IsNumbering waiting) :
    (s.dispatch = .answered none s ∧
      ∀ e ∈ waiting, s.queue.admits s.readiness e.1 = false) ∨
    ∃ before e behind s', waiting = before ++ e :: behind ∧
      s.queue.admits s.readiness e.1 = true ∧
      (∀ f ∈ before ++ behind, s.queue.admits s.readiness f.1 = true →
        Pending.Precedes s.queue.scanned.ordered e f) ∧
      s.dispatch = .answered (some e.1.released) s' ∧ s'.queue.policy = .plain ∧
      s'.queue.scanned.tasks = (before ++ behind).map Prod.fst := by
  cases hfound : waiting.find? fun e => s.queue.admits s.readiness e.1 with
  | none =>
    have hnone : ∀ e ∈ waiting, s.queue.admits s.readiness e.1 = false := fun e he =>
      Bool.eq_false_iff.mpr (List.find?_eq_none.mp hfound e he)
    refine .inl ⟨dispatch_of_none hplain fun t ht => ?_, hnone⟩
    rw [← h.tasks] at ht
    obtain ⟨e, he, rfl⟩ := List.mem_map.mp ht
    exact hnone e he
  | some e =>
    obtain ⟨before, behind, rfl, -, he, hbefore⟩ := Pending.exists_split_of_find? hfound
    have hsplit : s.queue.scanned.tasks = before.map Prod.fst ++ e.1 :: behind.map Prod.fst := by
      rw [← h.tasks, List.map_append, List.map_cons]
    obtain ⟨credit, s', -, hdispatch, hq⟩ :=
      dispatch_of_first hplain hsplit (by simpa using hbefore) he
    refine .inr ⟨before, e, behind, s', rfl, he, fun f hf hadmits => ?_, hdispatch, ?_, ?_⟩
    -- those in front are not admitted, and the task precedes those behind it
    · rcases List.mem_append.mp hf with hf | hf
      · have hrefused := hbefore f hf
        rw [hadmits] at hrefused
        cases hrefused
      · exact (List.pairwise_cons.mp (List.pairwise_append.mp h.sorted).2.1).1 f hf
    · rw [hq]
      exact hplain
    · rw [hq, List.map_append]

/-! ### Queues without a policy -/

/-- A queue without a policy never gets one. -/
theorem plain_after (hplain : s.queue.policy = .plain) (actions : List Action) :
    (s.after actions).queue.policy = .plain :=
  history_induction (I := fun _ now => now.queue.policy = .plain) hplain
    (fun _ _ => Moment.policy_after_plain) actions

end Session

/-- The queue of a plain strategy has no policy. -/
theorem Queue.policy_of_strategyAt {stage : Stage} {config : QueueConfig} {role : Role} {q : Queue}
    (hq : create stage config role = .ok q) (hplain : strategyAt stage config = .plain) :
    q.policy = .plain := by
  have hpolicy := (create_eq_ok hq).2.1
  rw [hplain, policyOf, Except.ok.injEq] at hpolicy
  exact hpolicy.symm

namespace Session

variable {stage : Stage} {config : QueueConfig} {role : Role} {s : Session}

/-- Whether a queue is metered is settled at its creation. -/
theorem isMetered_after_iff (hs : Queue.create stage config role = .ok s.queue)
    (actions : List Action) :
    (s.after actions).queue.credit.isMetered = true ↔ config.Meters stage role := by
  by_cases hmeters : config.Meters stage role
  · obtain ⟨hpolicy, hcredit⟩ := Queue.create_of_meters hs hmeters
    obtain ⟨available, inFlight, -, hafter, -⟩ := accounts_after hpolicy hcredit actions
    simp [hafter, Credit.isMetered, hmeters]
  · have hafter := unmetered_after (Queue.create_of_not_meters hs hmeters) actions
    simp [hafter, Credit.isMetered, hmeters]

/-- The scanned tasks are ordered where credit is metered. -/
theorem ordered_after (hs : Queue.create stage config role = .ok s.queue)
    (actions : List Action) :
    (s.after actions).queue.scanned.ordered = (s.after actions).queue.credit.isMetered := by
  have hstart : s.queue.scanned.ordered = s.queue.credit.isMetered := by
    rw [(Queue.create_eq_ok hs).2.2]
  have hordered : (s.after actions).queue.scanned.ordered = s.queue.scanned.ordered :=
    Queue.ordered_eq_of_setup (s.setup_after actions)
  have hmetered : (s.after actions).queue.credit.isMetered = s.queue.credit.isMetered :=
    Bool.eq_iff_iff.mpr <|
      (isMetered_after_iff hs actions).trans (isMetered_after_iff hs []).symm
  rw [hordered, hstart, hmetered]

end Session

/-! ### The least admissible task -/

/-- **The plain dispatch.** Along every run of a queue whose strategy is plain, refused calls
included, the tasks inside the queue stand in line: by descending priority, then ascending key, then
their submission if credit is metered, and by their submission alone if it is not. A task is
admissible if its flag is raised, its bytes are covered, and its key is ready in a table that the
stage gates on. A dispatch hands over the least admissible task; the others stay in line, and the
key of this task alone is acknowledged. It hands over none exactly where none is admissible, and
then it changes nothing at all. -/
theorem plain_dispatch_least {stage : Stage} {config : QueueConfig} {role : Role} {s : Session}
    (hs : Queue.create stage config role = .ok s.queue)
    (hplain : Queue.strategyAt stage config = .plain) (actions : List Action) :
    let now := s.after actions
    let credited := now.queue.credit.isMetered
    let admissible (t : Task) : Prop :=
      (∀ flag ∈ t.flag, flag ∈ now.readiness.raised) ∧
        (credited = true → t.len ≤ now.queue.credit.available) ∧
        (stage.gatesOnTable role = true →
          ∀ table ∈ now.readiness.table, table.count t.key = table.expected)
    (credited = true ↔ config.Meters stage role) ∧
    ∃ waiting : List (Task × Nat),
      now.queue.tasks = waiting.map Prod.fst ∧
      waiting <+~ ((s.history actions).filterMap Moment.submitted?).zipIdx ∧
      waiting.Pairwise (Pending.Precedes credited) ∧
      now.dispatch.IsAnswered ∧
      (∀ t, now.dispatch.result = .ok (some t) →
        ∃ before e behind, waiting = before ++ e :: behind ∧ t = e.1.released ∧
          admissible e.1 ∧
          (∀ f ∈ before ++ behind, admissible f.1 → Pending.Precedes credited e f) ∧
          now.dispatch.state.queue.tasks = (before ++ behind).map Prod.fst ∧
          now.dispatch.state.readiness =
            if stage.gatesOnTable role then now.readiness.acknowledge t.key else now.readiness) ∧
      (now.dispatch.result = .ok none ↔ ∀ e ∈ waiting, ¬ admissible e.1) ∧
      (now.dispatch.result = .ok none → now.dispatch.state = now) := by
  intro now credited admissible
  have hpolicy : now.queue.policy = .plain :=
    Session.plain_after (Queue.policy_of_strategyAt hs hplain) actions
  have hempty := Queue.tasks_create hs
  simp only [Queue.tasks, List.append_eq_nil_iff] at hempty
  obtain ⟨waiting, hnumbered, hsubmitted⟩ := Session.exists_numbered_scanned hempty.1 actions
  have hordered : now.queue.scanned.ordered = credited := Session.ordered_after hs actions
  have hall : ∀ q : Queue, q.policy = .plain → q.tasks = q.scanned.tasks := by
    intro q hq
    simp [Queue.tasks, hq, Policy.tasks, Policy.pendingTasks, Policy.stagedTasks]
  have hgated : now.queue.gated = stage.gatesOnTable role :=
    congrArg (fun setup => setup.2.2.1) ((s.setup_after actions).trans (Queue.setup_of_create hs))
  have hadmits : ∀ t, now.queue.admits now.readiness t = true ↔ admissible t := by
    intro t
    rw [Queue.admits_eq_true_iff, hgated]
    simp [admissible, credited, CountingTable.isReady]
  refine ⟨Session.isMetered_after_iff hs actions, waiting, ?_, hsubmitted,
    hordered ▸ hnumbered.sorted, ?_⟩
  · rw [hall _ hpolicy, hnumbered.tasks]
  rcases Session.dispatch_of_numbered hpolicy hnumbered with
    ⟨hdispatch, hnone⟩ | ⟨before, e, behind, s', rfl, he, hleast, hdispatch, hpolicy', htasks⟩
  · rw [hdispatch]
    refine ⟨⟨_, rfl⟩, by simp, iff_of_true rfl fun e he => ?_, fun _ => rfl⟩
    rw [← hadmits, hnone e he]
    exact Bool.false_ne_true
  · have hreadiness := now.readiness_dispatch
    rw [hdispatch] at hreadiness ⊢
    refine ⟨⟨_, rfl⟩, fun t ht => ?_, iff_of_false (by simp) fun hnone => ?_, by simp⟩
    · obtain rfl : e.1.released = t := by simpa using ht
      refine ⟨before, e, behind, rfl, rfl, (hadmits e.1).mp he, fun f hf hadmissible => ?_, ?_, ?_⟩
      · exact hordered ▸ hleast f hf ((hadmits f.1).mpr hadmissible)
      · rw [Outcome.state_answered, hall _ hpolicy', htasks]
      · rw [← hgated]
        simpa [Queue.acknowledge, Task.released] using hreadiness
    · exact hnone e (by simp) ((hadmits e.1).mp he)

/-- Two tasks of one rank, behind one that is never covered and in front of the lowest. -/
def uncoveredFrontRun : List Action :=
  [.submit { name := "fc", key := 4, priority := -1, len := 16 },
    .submit { name := "conv", key := 9, priority := 0x7fffffffffffffff, len := 40 },
    .submit { name := "bias", key := 0, priority := -0x8000000000000000, len := 8 },
    .submit { name := "fc", key := 4, priority := -1, len := 8 }]

theorem plain_dispatch_least_uncoveredFrontRun :
    let now := meteredReduction.after uncoveredFrontRun
    let later := meteredReduction.after (uncoveredFrontRun ++ List.replicate 3 .dispatch)
    Queue.create .reduce smallBudget { signalRoot := true } = .ok meteredReduction.queue ∧
      Queue.strategyAt .reduce smallBudget = .plain ∧
      (∃ before e behind : List (Task × Nat),
        (before ++ e ++ behind).map Prod.fst = now.queue.tasks ∧
        (before ++ e ++ behind).Pairwise (Pending.Precedes true) ∧
        e.map (fun e => (e.1.name, e.1.len)) = [("fc", 16)] ∧
        now.dispatch.state.queue.tasks = (before ++ behind).map Prod.fst) ∧
      later.dispatch.state = later := by
  intro now later
  have hs : Queue.create .reduce smallBudget { signalRoot := true } =
      .ok meteredReduction.queue := rfl
  obtain ⟨-, waiting, htasks, -, hsorted, -, hsome, -⟩ :=
    plain_dispatch_least hs rfl uncoveredFrontRun
  obtain ⟨-, -, -, -, -, -, -, -, hnone⟩ :=
    plain_dispatch_least hs rfl (uncoveredFrontRun ++ List.replicate 3 .dispatch)
  have hmetered : now.queue.credit.isMetered = true := by decide +kernel
  have hresult : now.dispatch.result =
      .ok (some { name := "fc", key := 4, priority := -1, len := 16 }) := by decide +kernel
  obtain ⟨before, e, behind, rfl, he, -, -, hleft, -⟩ := hsome _ hresult
  rw [hmetered] at hsorted
  refine ⟨hs, rfl, ⟨before, [e], behind, ?_, ?_, ?_, hleft⟩, hnone (by decide +kernel)⟩
  · rw [List.append_assoc]
    exact htasks.symm
  · rwa [List.append_assoc]
  · have hname := congrArg Task.name he
    have hlen := congrArg Task.len he
    simp only [Task.released] at hname hlen
    rw [List.map_singleton, ← hname, ← hlen]

end TensorDispatch
