import TensorDispatch.Proofs.Admission

/-!
# Contributions to a key

Contributors add to a counting table, and a dispatcher clears the keys it has consumed.

* `CountingTable.Entry`, `CountingTable.after` — the contributions and clearances that a table has
  seen, in order;
* `CountingTable.sinceClear` — the contributions to a key behind its last clearance, which is what
  the table counts (`CountingTable.count_after`);
* `Session.Overruns` — more contributions than expected have come to a key. A session never gets
  out of this: the key is not ready, so no dispatch clears it (`Moment.overruns_after`);
* `ready_iff_exact_count` — a key is ready exactly while as many contributions as expected stand
  behind its last clearance. One more, and it waits for a clearance that a dispatcher never makes;
* `not_readyOnceReached_overrun` — so a key that has become ready does not stay so.
-/

namespace TensorDispatch

namespace CountingTable

/-! ### What a table counts -/

/-- A contribution to a key, or its clearance. -/
inductive Entry
  | add (key : Nat)
  | clear (key : Nat)
  deriving DecidableEq, Repr

/-- The table after an entry. -/
def enter (e : Entry) (t : CountingTable) : CountingTable :=
  match e with
  | .add key => t.add key
  | .clear key => t.clear key

/-- The table after some entries, the earliest first. -/
def after (entries : List Entry) (t : CountingTable) : CountingTable :=
  entries.foldl (fun t e => t.enter e) t

/-- The contributions to a key behind its last clearance. -/
def sinceClear (key : Nat) (entries : List Entry) : Nat :=
  (entries.reverse.takeWhile (· ≠ .clear key)).count (.add key)

theorem after_concat (entries : List Entry) (e : Entry) (t : CountingTable) :
    t.after (entries ++ [e]) = (t.after entries).enter e := by
  simp [after]

@[simp] theorem expected_after (entries : List Entry) (t : CountingTable) :
    (t.after entries).expected = t.expected := by
  induction entries using List.reverseRecOn with
  | nil => rfl
  | append_singleton entries e ih =>
    rw [after_concat]
    cases e <;> exact ih

/-- A clearance starts from zero, and any other entry counts if it contributes to the key. -/
theorem sinceClear_concat (key : Nat) (entries : List Entry) (e : Entry) :
    sinceClear key (entries ++ [e]) =
      if e = .clear key then 0 else sinceClear key entries + if e = .add key then 1 else 0 := by
  simp only [sinceClear, List.reverse_append, List.reverse_singleton, List.singleton_append]
  by_cases h : e = .clear key
  · simp [h]
  · simp [h, List.count_cons]

/-- Without a clearance, every further contribution to the key counts. -/
theorem sinceClear_append {key : Nat} {later : List Entry} (h : .clear key ∉ later)
    (entries : List Entry) :
    sinceClear key (entries ++ later) = sinceClear key entries + later.count (.add key) := by
  induction later using List.reverseRecOn with
  | nil => simp
  | append_singleton later e ih =>
    have he : e ≠ .clear key := by
      rintro rfl
      simp at h
    have hlater : .clear key ∉ later := fun hmem => h (List.mem_append_left _ hmem)
    rw [← List.append_assoc, sinceClear_concat, if_neg he, ih hlater, List.count_append,
      List.count_singleton]
    simp only [beq_iff_eq, Nat.add_assoc]

/-- A table that begins empty counts the contributions behind the last clearance. -/
theorem count_after (expected key : Nat) (entries : List Entry) :
    (after entries { expected }).count key = sinceClear key entries := by
  induction entries using List.reverseRecOn with
  | nil => rfl
  | append_singleton entries e ih =>
    rw [after_concat, sinceClear_concat, ← ih]
    cases e with
    | add other => simp [enter, count_add]
    | clear other =>
      simp only [enter, count_clear, Entry.clear.injEq, eq_comm (a := other)]
      split <;> simp

/-- A key of a table that begins empty is ready once enough contributions stand behind its last
clearance, however many there are. -/
def ReadyOnceReached (expected key : Nat) (entries : List Entry) : Prop :=
  (after entries { expected }).isReady key = true ↔ expected ≤ sinceClear key entries

theorem isReady_after_iff (expected key : Nat) (entries : List Entry) :
    (after entries { expected }).isReady key = true ↔ sinceClear key entries = expected := by
  rw [isReady, beq_iff_eq, count_after, expected_after]

end CountingTable

/-! ### Overrun keys in a session -/

/-- More contributions to a key have come than its table expects. -/
def Session.Overruns (key : Nat) (s : Session) : Prop :=
  ∃ table ∈ s.readiness.table, table.expected < table.count key

/-- A queue that consults its table hands no task of an overrun key over. -/
theorem Session.Overruns.key_ne {s : Session} {key : Nat} (h : s.Overruns key)
    (hgated : s.queue.gated = true) {t : Task} (ht : s.dispatch.result = .ok (some t)) :
    t.key ≠ key := by
  obtain ⟨table, htable, hover⟩ := h
  obtain ⟨u, -, rfl, hadmits⟩ := Session.exists_of_dispatch ht
  have hready := (Queue.admits_eq_true_iff.mp hadmits).2.2 hgated table htable
  rw [CountingTable.isReady, beq_iff_eq] at hready
  rintro rfl
  have hkey : table.count u.released.key = table.count u.key := rfl
  omega

namespace Moment

variable {m : Moment} {key : Nat}

theorem result_dispatch_of_returned? (haction : m.action = .dispatch) {t : Task}
    (ht : m.returned? = some t) : m.before.dispatch.result = .ok (some t) := by
  obtain ⟨s, a⟩ := m
  obtain rfl : a = .dispatch := haction
  rw [returned?, outcome_dispatch] at ht
  cases hresult : s.dispatch.result with
  | error f => simp [hresult] at ht
  | ok t' =>
    rw [hresult] at ht
    exact congrArg Except.ok ht

/-- No action makes good for an overrun key: a dispatch clears other keys alone. -/
theorem overruns_after (h : m.before.Overruns key) : m.after.Overruns key := by
  obtain ⟨table, htable, hover⟩ := h
  refine ⟨m.onTable table, ?_, ?_⟩
  · rw [m.table_after, Option.mem_def.mp htable]
    rfl
  · unfold onTable
    split
    · rw [CountingTable.count_add]
      exact Nat.lt_add_right _ hover
    · rename_i t haction hreturned
      split
      · rename_i hgated
        have hother : t.key ≠ key := Session.Overruns.key_ne ⟨table, htable, hover⟩ hgated
          (result_dispatch_of_returned? haction hreturned)
        rw [CountingTable.count_clear, if_neg (Ne.symm hother)]
        exact hover
      · exact hover
    · exact hover

end Moment

theorem Session.overruns_after {s : Session} {key : Nat} (h : s.Overruns key)
    (actions : List Action) : (s.after actions).Overruns key :=
  history_induction (I := fun _ s => s.Overruns key) h (fun _ _ => Moment.overruns_after) actions

/-! ### Readiness of a key -/

/-- **When a key is ready.** A key is ready exactly while as many contributions as expected stand
behind its last clearance, whatever is contributed to other keys. So enough contributions make it
ready as long as they are not too many. Once they are, the key is not ready before it is cleared,
and a queue that consults the table hands no task of the key over any more, whatever its callers
do. -/
theorem ready_iff_exact_count (expected key : Nat) (entries : List CountingTable.Entry) :
    let table := CountingTable.after entries { expected }
    let reached := CountingTable.sinceClear key entries
    (table.isReady key = true ↔ reached = expected) ∧
    (CountingTable.ReadyOnceReached expected key entries ↔ reached ≤ expected) ∧
    (expected < reached → ∀ later, .clear key ∉ later →
      (table.after later).isReady key = false) ∧
    (expected < reached → ∀ s : Session, s.readiness.table = some table →
      s.queue.gated = true → ∀ (actions : List Action) (t : Task),
        (s.after actions).dispatch.result = .ok (some t) → t.key ≠ key) := by
  intro table reached
  have hready := CountingTable.isReady_after_iff expected key entries
  refine ⟨hready, ?_, ?_, ?_⟩
  · rw [CountingTable.ReadyOnceReached, hready]
    constructor
    · intro h
      by_contra hover
      have hexact := h.mpr (by omega)
      omega
    · intro hle
      constructor <;> omega
  · intro hover later hkept
    have hmore : table.after later = CountingTable.after (entries ++ later) { expected } := by
      simp [table, CountingTable.after]
    rw [hmore, ← Bool.not_eq_true, CountingTable.isReady_after_iff,
      CountingTable.sinceClear_append hkept]
    omega
  · intro hover s htable hgated actions t ht
    have hoverruns : s.Overruns key := by
      refine ⟨table, htable, ?_⟩
      rw [CountingTable.count_after, CountingTable.expected_after]
      exact hover
    have hgated' : (s.after actions).queue.gated = true :=
      (Queue.gated_eq_of_setup (s.setup_after actions)).trans hgated
    exact (Session.overruns_after hoverruns actions).key_ne hgated' ht

/-- Two contributions to a key are expected, and a third one comes before its task. -/
def overrunRun : List Action :=
  [.change (.contribute 7), .change (.contribute 7), .change (.contribute 7),
    .submit { name := "conv", key := 7, priority := -1, len := 16 }]

theorem ready_iff_exact_count_overrunRun :
    let s := (pushBesideTable true).after overrunRun
    s.queue.tasks.map Task.key = [7] ∧
      ∀ (actions : List Action) (t : Task),
        (s.after actions).dispatch.result = .ok (some t) → t.key ≠ 7 := by
  intro s
  obtain ⟨-, -, -, hstuck⟩ := ready_iff_exact_count 2 7 [.add 7, .add 7, .add 7]
  exact ⟨by decide +kernel, hstuck (by decide) s (by decide +kernel) (by decide +kernel)⟩

/-- A second contribution to a key that expects one takes its readiness away again. -/
theorem not_readyOnceReached_overrun :
    ¬ CountingTable.ReadyOnceReached 1 7 [.add 7, .add 7] := by
  intro h
  have hready := h.mpr (by decide)
  revert hready
  decide

end TensorDispatch
