import TensorDispatch.Proofs.Queue.Checks

/-!
# Admission

A task leaves a queue only when it is admitted, and admission is what a counting table is
acknowledged for.

* `Queue.admits_eq_true_iff`, `Session.exists_of_dispatch` — what a dispatch hands over is ready,
  covered by credit, and has its key ready in a table that the queue consults;
* `Session.act_withTable`, `Session.answers_withTable` — a queue that does not consult its table
  does the same beside any other table;
* `admission_safe` — along every run, a dispatch acknowledges the key of the task it hands over and
  no other, and nothing else acknowledges anything.
-/

namespace TensorDispatch

/-! ### What is admitted -/

theorem Readiness.isReady_eq_true_iff {t : Task} {readiness : Readiness} :
    readiness.isReady t = true ↔ ∀ flag ∈ t.flag, flag ∈ readiness.raised := by
  cases hflag : t.flag <;> simp [isReady, hflag]

theorem Queue.admits_eq_true_iff {readiness : Readiness} {q : Queue} {t : Task} :
    q.admits readiness t = true ↔
      (∀ flag ∈ t.flag, flag ∈ readiness.raised) ∧
        (q.credit.isMetered = true → t.len ≤ q.credit.available) ∧
        (q.gated = true → ∀ table ∈ readiness.table, table.isReady t.key = true) := by
  have hcredit : q.credit.admits t.len = true ↔
      (q.credit.isMetered = true → t.len ≤ q.credit.available) := by
    cases q.credit <;> simp [Credit.admits, Credit.isMetered, Credit.available]
  have htable : (!q.gated || readiness.isKeyReady t.key) = true ↔
      (q.gated = true → ∀ table ∈ readiness.table, table.isReady t.key = true) := by
    cases q.gated <;> cases h : readiness.table <;> simp [Readiness.isKeyReady, h]
  rw [admits, Bool.and_eq_true, Bool.and_eq_true, Readiness.isReady_eq_true_iff, hcredit, htable,
    and_assoc]

/-- What a dispatch hands over was inside the queue, and was admitted. -/
theorem Session.exists_of_dispatch {s : Session} {t : Task}
    (h : s.dispatch.result = .ok (some t)) :
    ∃ u ∈ s.queue.tasks, t = u.released ∧ s.queue.admits s.readiness u = true := by
  have hspec := s.queue.choose_spec s.readiness s.now
  rcases s.dispatch_cases with
    ⟨f, q, -, hdispatch⟩ | ⟨q, -, hdispatch⟩ |
      ⟨u, q, credit, s', hchoose, hadmits, -, hdispatch, -⟩
  · simp [hdispatch] at h
  · simp [hdispatch] at h
  · rw [hchoose] at hspec
    have hmem : u ∈ s.queue.tasks := hspec.2.1.mem_iff.mpr (by simp)
    rw [hdispatch, Outcome.result_answered, Except.ok.injEq, Option.some.injEq] at h
    exact ⟨u, hmem, h.symm, hadmits⟩

/-! ### Queues that do not consult their table -/

/-- A contribution that others make to the table. -/
def Action.isContribution : Action → Bool
  | .change (.contribute _) => true
  | _ => false

/-- What the callers of a queue see of a moment: its answer, and the queue behind it. What others
contribute to the table is none of the queue's business. -/
def Moment.answer? (m : Moment) : Option (Except Fault (Option Task) × Snapshot) :=
  if m.action.isContribution then none else some (m.outcome.result, m.after.queue.snapshot)

namespace Session

/-- What the callers of a queue see of a run. -/
def answers (s : Session) (actions : List Action) : List (Except Fault (Option Task) × Snapshot) :=
  (s.history actions).filterMap Moment.answer?

/-- The session beside another table, or beside none. -/
def withTable (table : Option CountingTable) (s : Session) : Session :=
  { s with readiness := { s.readiness with table } }

end Session

namespace Queue

variable {q : Queue} (table : Option CountingTable) (readiness : Readiness)

theorem admits_withTable (h : q.gated = false) :
    q.admits { readiness with table } = q.admits readiness := by
  funext t
  simp only [admits, h, Bool.not_false, Bool.true_or, Bool.and_true]
  rfl

theorem choose_withTable (h : q.gated = false) (now : Int) :
    q.choose { readiness with table } now = q.choose readiness now := by
  have hgradient : q.chooseGradient { readiness with table } now =
      q.chooseGradient readiness now := by
    simp only [chooseGradient, admits_withTable table readiness h]
  have hspec := q.chooseGradient_spec readiness now
  unfold choose
  rw [hgradient]
  rcases hchoose : q.chooseGradient readiness now with ⟨f | _ | t, q'⟩
  · rfl
  · rw [hchoose] at hspec
    obtain ⟨⟨policy, stats, rfl, -⟩, -⟩ := hspec
    have hscanned : ∀ q' : Queue, q'.gated = false →
        q'.chooseScanned { readiness with table } = q'.chooseScanned readiness := by
      intro q' h'
      simp only [chooseScanned, admits_withTable table readiness h']
    simp only [hscanned { q with policy, stats } h]
  · rfl

end Queue

namespace Session

variable {s : Session} (table : Option CountingTable)

theorem handOver_withTable (t : Task) (s : Session) :
    handOver t (s.withTable table) = (handOver t s).within (withTable table) := by
  simp only [handOver, withTable]
  split <;> rfl

/-- Beside another table, a queue that does not consult it acts as it does. -/
theorem act_withTable (h : s.queue.gated = false) {a : Action} (ha : a.isContribution = false) :
    (s.withTable table).act a = (s.act a).within (withTable table) := by
  cases a with
  | submit t => rfl
  | dispatch =>
    have hchoose := Queue.choose_withTable table s.readiness h s.now
    have hsetup := s.queue.setup_choose s.readiness s.now
    simp only [act, dispatch]
    rw [show (s.withTable table).queue.choose (s.withTable table).readiness
      (s.withTable table).now = s.queue.choose s.readiness s.now from hchoose]
    rcases hq : s.queue.choose s.readiness s.now with ⟨f | _ | t, q⟩
    · rfl
    · rfl
    · rw [hq] at hsetup
      have hgated : q.gated = false := (Queue.gated_eq_of_setup hsetup).trans h
      simp only [hgated]
      exact handOver_withTable table t { s with queue := q }
  | dispatchKey key =>
    simp only [act, dispatchKey]
    rw [show (s.withTable table).queue.chooseKey (s.withTable table).readiness key =
      s.queue.chooseKey s.readiness key from rfl]
    rcases s.queue.chooseKey s.readiness key with ⟨f | _ | t, q⟩
    · rfl
    · rfl
    · exact handOver_withTable table t { s with queue := q }
  | finish len => rfl
  | change c =>
    cases c with
    | contribute key => cases ha
    | _ => rfl

/-- A contribution changes the table alone. -/
theorem exists_withTable_of_isContribution {a : Action} (ha : a.isContribution = true)
    (s : Session) : ∃ table, (s.act a).state = s.withTable table := by
  match a, ha with
  | .change (.contribute key), _ =>
    cases htable : s.readiness.table with
    | none =>
      refine ⟨s.readiness.table, ?_⟩
      simp only [act, apply, step, htable, Outcome.answered]
      rw [← htable]
      rfl
    | some table =>
      refine ⟨some (table.add key), ?_⟩
      simp only [act, apply, step, htable, Outcome.answered]
      rfl

/-- A queue that does not consult its table is seen to do the same beside any other table, whatever
others contribute to it in the meantime. -/
theorem answers_withTable (h : s.queue.gated = false) (actions : List Action) :
    (s.withTable table).answers actions =
      s.answers (actions.filter fun a => !a.isContribution) := by
  induction actions generalizing s table with
  | nil => rfl
  | cons a actions ih =>
    cases ha : a.isContribution with
    | true =>
      obtain ⟨table', htable'⟩ := exists_withTable_of_isContribution ha (s.withTable table)
      have hnone : Moment.answer? ⟨s.withTable table, a⟩ = none := by simp [Moment.answer?, ha]
      rw [answers, history, List.filterMap_cons_none hnone, htable',
        List.filter_cons_of_neg (by simp [ha])]
      exact ih table' h
    | false =>
      have hact := act_withTable table h ha
      have hgated : (s.act a).state.queue.gated = false :=
        (Queue.gated_eq_of_setup (Moment.setup_after ⟨s, a⟩)).trans h
      have hsome : ∀ s' : Session, Moment.answer? ⟨s', a⟩ =
          some ((s'.act a).result, (s'.act a).state.queue.snapshot) := by
        intro s'
        simp [Moment.answer?, ha, Moment.outcome, Moment.after]
      have ih := ih table hgated
      simp only [answers] at ih
      rw [List.filter_cons_of_pos (by simp [ha])]
      simp only [answers, history, List.filterMap_cons_some (hsome _), hact,
        Outcome.result_within, Outcome.state_within, ih]
      rfl

end Session

/-! ### Safety -/

/-- Only a contribution changes a table, or a dispatch that hands a task over in a queue that
consults it. -/
theorem Session.table_act {s : Session} {a : Action} (ha : a.isContribution = false)
    (hkept : a = .dispatch → s.queue.gated = true → ∀ t, s.dispatch.result ≠ .ok (some t)) :
    (s.act a).state.readiness.table = s.readiness.table := by
  have htable := Moment.table_after ⟨s, a⟩
  have hid : Moment.onTable ⟨s, a⟩ = id := by
    funext table
    unfold Moment.onTable
    split
    · rename_i key haction
      have haction : a = .change (.contribute key) := haction
      rw [haction] at ha
      cases ha
    · rename_i t haction hreturned
      have haction : a = .dispatch := haction
      subst haction
      have hreturned : Moment.returned? ⟨s, .dispatch⟩ = some t := hreturned
      rw [Moment.returned?, Moment.outcome_dispatch] at hreturned
      cases hresult : s.dispatch.result with
      | error f => simp [hresult] at hreturned
      | ok t' =>
        rw [hresult] at hreturned
        have hungated : s.queue.gated = false := by
          by_contra hgated
          exact hkept rfl (by simpa using hgated) t
            (hresult.trans (congrArg Except.ok hreturned))
        exact if_neg (by simp [hungated])
    · rfl
  rw [hid, Option.map_id] at htable
  exact htable

/-- A dispatch that hands a task over clears the key of the task in a table that the queue
consults, and keeps all other counts. -/
theorem Session.table_dispatch {s : Session} {t : Task} (h : s.dispatch.result = .ok (some t))
    (hgated : s.queue.gated = true) {table : CountingTable}
    (htable : s.readiness.table = some table) :
    s.dispatch.state.readiness.table = some (table.clear t.key) := by
  have hafter := Moment.table_after ⟨s, .dispatch⟩
  simpa [Moment.after, Moment.onTable, Moment.returned?, h, hgated, htable] using hafter

/-- **Safety of admission.** Along every run, what a dispatch hands over was inside the queue, was
ready and covered by credit, and had its key ready in a table that the stage gates on; the dispatch
clears that key and keeps every other count. It does so although the checks acknowledge at once.
Nothing else that is done to the queue changes the table. A queue of a stage that does not gate on
the table never changes it, and is seen to do the same beside any two tables, whatever is
contributed to them. -/
theorem admission_safe {stage : Stage} {config : QueueConfig} {role : Role} {s : Session}
    (hs : Queue.create stage config role = .ok s.queue) (actions : List Action) :
    let now := s.after actions
    now.dispatchChecking = now.dispatch ∧
    (∀ t, now.dispatch.result = .ok (some t) →
      (∃ u ∈ now.queue.tasks, t = u.released ∧
        (∀ flag ∈ u.flag, flag ∈ now.readiness.raised) ∧
        (now.queue.credit.isMetered = true → u.len ≤ now.queue.credit.available)) ∧
      (stage.gatesOnTable role = true → ∀ table ∈ now.readiness.table,
        table.count t.key = table.expected ∧
        ∃ table' ∈ now.dispatch.state.readiness.table, table'.expected = table.expected ∧
          ∀ key, table'.count key = if key = t.key then 0 else table.count key)) ∧
    (∀ a, a.isContribution = false → (a = .dispatch → ∀ t, now.dispatch.result ≠ .ok (some t)) →
      (now.act a).state.readiness.table = now.readiness.table) ∧
    (stage.gatesOnTable role = false →
      (∀ a, a.isContribution = false →
        (now.act a).state.readiness.table = now.readiness.table) ∧
      ∀ table later later',
        (later.filter fun a => !a.isContribution) = (later'.filter fun a => !a.isContribution) →
        (now.withTable table).answers later = now.answers later') := by
  dsimp only
  have hgated : (s.after actions).queue.gated = stage.gatesOnTable role := by
    have hsetup := (s.setup_after actions).trans (Queue.setup_of_create hs)
    exact congrArg (fun setup => setup.2.2.1) hsetup
  set now := s.after actions
  refine ⟨now.dispatchChecking_eq, fun t ht => ⟨?_, fun hgates table htable => ?_⟩,
    fun a ha hnone => Session.table_act ha fun h _ => hnone h, fun hgates => ⟨fun a ha => ?_, ?_⟩⟩
  · obtain ⟨u, hu, heq, hadmits⟩ := Session.exists_of_dispatch ht
    obtain ⟨hflag, hcredit, -⟩ := Queue.admits_eq_true_iff.mp hadmits
    exact ⟨u, hu, heq, hflag, hcredit⟩
  · rw [← hgated] at hgates
    obtain ⟨u, -, rfl, hadmits⟩ := Session.exists_of_dispatch ht
    obtain ⟨-, -, hready⟩ := Queue.admits_eq_true_iff.mp hadmits
    refine ⟨by simpa [CountingTable.isReady, Task.released] using hready hgates table htable, _,
      Session.table_dispatch ht hgates htable, rfl, fun key => ?_⟩
    exact CountingTable.count_clear _ _ _
  · rw [← hgated] at hgates
    exact Session.table_act ha fun _ hgated => absurd hgated (by simp [hgates])
  · intro table later later' hsame
    rw [← hgated] at hgates
    have hself : now.withTable now.readiness.table = now := rfl
    rw [Session.answers_withTable table hgates later, hsame,
      ← Session.answers_withTable now.readiness.table hgates later', hself]

/-- A session around a fresh push queue, beside a table that expects two contributions to a key. -/
def pushBesideTable (gated : Bool) : Session where
  queue :=
    { stage := .push, strategy := .plain, gated, scanned := { ordered := false }
      credit := .unmetered, policy := .plain }
  readiness := { table := some { expected := 2 } }

/-- Two tensors are ready in the table, but the first waits for its flag. -/
def flaggedFrontRun : List Action :=
  [.submit { name := "conv", key := 7, priority := -1, len := 16, flag := some "computed" },
    .submit { name := "fc", key := 9, priority := -2, len := 8 },
    .change (.contribute 7), .change (.contribute 9), .change (.contribute 7),
    .change (.contribute 9)]

theorem admission_safe_flaggedFrontRun :
    Queue.create .push {} { rootDevice := true } = .ok (pushBesideTable true).queue ∧
      Queue.create .push {} {} = .ok (pushBesideTable false).queue ∧
      (∃ t table, ((pushBesideTable true).after flaggedFrontRun).dispatch.result = .ok (some t) ∧
        ((pushBesideTable true).after flaggedFrontRun).dispatch.state.readiness.table = some table ∧
        t.key = 9 ∧ table.count 9 = 0 ∧ table.count 7 = 2) ∧
      ((pushBesideTable true).act (.dispatchKey 9)).state.readiness.table =
        (pushBesideTable true).readiness.table ∧
      ((pushBesideTable false).withTable none).answers flaggedFrontRun =
        (pushBesideTable false).answers (flaggedFrontRun.take 2) := by
  have hgated : Queue.create .push {} { rootDevice := true } = .ok (pushBesideTable true).queue :=
    rfl
  have hungated : Queue.create .push {} {} = .ok (pushBesideTable false).queue := rfl
  obtain ⟨-, hdispatch, -, -⟩ := admission_safe hgated flaggedFrontRun
  obtain ⟨-, -, hkept, -⟩ := admission_safe hgated []
  obtain ⟨-, -, -, hfree⟩ := admission_safe hungated []
  set now := (pushBesideTable true).after flaggedFrontRun with hnow
  have hresult : now.dispatch.result =
      .ok (some { name := "fc", key := 9, priority := -2, len := 8 }) := by
    rw [hnow]
    decide +kernel
  have htable : now.readiness.table = some ⟨2, [9, 7, 9, 7]⟩ := by
    rw [hnow]
    decide +kernel
  obtain ⟨-, hclears⟩ := hdispatch _ hresult
  obtain ⟨-, table', htable', -, hcount⟩ := hclears rfl _ htable
  refine ⟨hgated, hungated, ⟨_, table', hresult, htable', rfl, ?_, ?_⟩, ?_, ?_⟩
  · exact hcount 9
  · exact hcount 7
  · exact hkept (.dispatchKey 9) rfl (by simp)
  · exact (hfree rfl).2 none flaggedFrontRun (flaggedFrontRun.take 2) rfl

end TensorDispatch
