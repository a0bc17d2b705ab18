import Mathlib.Data.List.Destutter
import TensorDispatch.Proofs.Rehearsal.Iterations
import TensorDispatch.Proofs.Rehearsal.Polls

/-!
# The order of tensors in a report

A report tells the order of the tensors of an iteration by leaving out each emission that repeats
the tensor of the one before it.

* `collapse_eq_destutter` — what is left of a list is the list without its stuttering. The tensors
  (`mem_collapse_iff`) and the order of their first emissions (`idxOf_collapse_lt_iff`) are kept;
* `nodup_collapse_iff` — nothing is told twice just where the emissions of each tensor stand
  together;
* `tensorOrder_listsDistinct_iff` — the order told is the one of the distinct tensors by first
  emission just where no tensor is interrupted. Partitions that leave as they were shuffled do
  interrupt each other.
-/

namespace TensorDispatch.Rehearsal

open scoped List

/-! ### Collapsed lists -/

/-- A collapsed list begins as the list does. -/
theorem exists_collapse_cons (p : Int) (ps : List Int) :
    ∃ rest, collapse (p :: ps) = p :: rest := by
  rw [collapse]
  split
  · exact ⟨_, rfl⟩
  · split
    · rename_i h
      exact ⟨_, congrArg (· :: _) h.symm⟩
    · exact ⟨_, rfl⟩

theorem collapse_cons_cons (p q : Int) (ps : List Int) :
    collapse (p :: q :: ps) = if p = q then collapse (q :: ps) else p :: collapse (q :: ps) := by
  obtain ⟨rest, h⟩ := exists_collapse_cons q ps
  rw [collapse, h]

theorem collapse_eq_destutter (ps : List Int) : collapse ps = ps.destutter (· ≠ ·) := by
  cases ps with
  | nil => rfl
  | cons p ps =>
    rw [List.destutter_cons']
    induction ps generalizing p with
    | nil => rfl
    | cons q ps ih =>
      rw [collapse_cons_cons, ih, List.destutter'_cons]
      by_cases h : p = q
      · rw [if_pos h, if_neg (not_not.mpr h), h]
      · rw [if_neg h, if_pos h]

/-- A collapsed list puts an item in front, unless it is there already. -/
theorem collapse_cons_cases (p : Int) (ps : List Int) :
    collapse (p :: ps) = p :: collapse ps ∨
      ∃ rest, collapse ps = p :: rest ∧ collapse (p :: ps) = p :: rest := by
  cases ps with
  | nil => exact .inl rfl
  | cons q ps =>
    rw [collapse_cons_cons]
    by_cases h : p = q
    · obtain ⟨rest, hrest⟩ := exists_collapse_cons q ps
      rw [if_pos h, h]
      exact .inr ⟨rest, hrest, hrest⟩
    · rw [if_neg h]
      exact .inl rfl

theorem mem_collapse_iff {p : Int} {ps : List Int} : p ∈ collapse ps ↔ p ∈ ps := by
  induction ps with
  | nil => rfl
  | cons q ps ih =>
    rcases collapse_cons_cases q ps with h | ⟨rest, hps, h⟩
    · rw [h, List.mem_cons, List.mem_cons, ih]
    · rw [hps, List.mem_cons] at ih
      rw [h, List.mem_cons, List.mem_cons, ← ih, ← or_assoc, or_self]

/-- An item in front moves all the others by the same number of places. -/
theorem exists_shift_collapse_cons (x : Int) (ps : List Int) :
    ∃ n, ∀ p ≠ x, (collapse (x :: ps)).idxOf p = (collapse ps).idxOf p + n := by
  rcases collapse_cons_cases x ps with h | ⟨rest, hps, h⟩
  · refine ⟨1, fun p hp => ?_⟩
    rw [h, List.idxOf_cons_ne _ hp.symm]
  · exact ⟨0, fun p _ => by rw [h, hps, Nat.add_zero]⟩

/-- Of two items, the same one comes first in a list and in what is left of it. -/
theorem idxOf_collapse_lt_iff {p q : Int} {ps : List Int} :
    (collapse ps).idxOf p < (collapse ps).idxOf q ↔ ps.idxOf p < ps.idxOf q := by
  induction ps with
  | nil => rfl
  | cons x ps ih =>
    obtain ⟨rest, hrest⟩ := exists_collapse_cons x ps
    rcases eq_or_ne q x with rfl | hq
    · simp [hrest]
    rcases eq_or_ne p x with rfl | hp
    · rw [hrest, List.idxOf_cons_self, List.idxOf_cons_self, List.idxOf_cons_ne _ hq.symm,
        List.idxOf_cons_ne _ hq.symm]
      exact iff_of_true (Nat.succ_pos _) (Nat.succ_pos _)
    · obtain ⟨n, hshift⟩ := exists_shift_collapse_cons x ps
      rw [hshift p hp, hshift q hq, List.idxOf_cons_ne _ hp.symm, List.idxOf_cons_ne _ hq.symm,
        Nat.add_lt_add_iff_right, Nat.succ_lt_succ_iff, ih]

/-- What stutters nowhere is left of every list that it is part of. -/
theorem sublist_collapse {l ps : List Int} (h : l <+ ps) (hchain : l.IsChain (· ≠ ·)) :
    l <+ collapse ps := by
  induction h with
  | slnil => exact .slnil
  | @cons l ps x _ ih =>
    rcases collapse_cons_cases x ps with heq | ⟨rest, hps, heq⟩
    · rw [heq]
      exact (ih hchain).cons x
    · rw [heq, ← hps]
      exact ih hchain
  | @cons_cons l ps x _ ih =>
    have hl := ih hchain.tail
    rcases collapse_cons_cases x ps with heq | ⟨rest, hps, heq⟩
    · rw [heq]
      exact hl.cons_cons x
    -- the item in front is taken, and what follows it does not begin with it
    · rw [hps] at hl
      rw [heq]
      rcases List.sublist_cons_iff.mp hl with hl | ⟨l', rfl, -⟩
      · exact hl.cons_cons x
      · exact absurd rfl (List.isChain_cons_cons.mp hchain).1

/-! ### Interruptions -/

/-- The emissions of each tensor stand together: no other one comes in between. -/
def Together (emitted : List Int) : Prop := ∀ p q, [p, q, p] <+ emitted → p = q

/-- In a list without stuttering, an item that comes twice is interrupted. -/
theorem exists_interruption {p : Int} {l : List Int} (h : [p, p] <+ l)
    (hchain : l.IsChain (· ≠ ·)) : ∃ q ≠ p, [p, q, p] <+ l := by
  induction l with
  | nil => cases h
  | cons x l ih =>
    rcases List.sublist_cons_iff.mp h with h | ⟨_, heq, h⟩
    · obtain ⟨q, hq, hsublist⟩ := ih h hchain.tail
      exact ⟨q, hq, hsublist.cons x⟩
    · cases heq
      cases l with
      | nil => cases h
      | cons q l =>
        have hq : p ≠ q := (List.isChain_cons_cons.mp hchain).1
        rcases List.sublist_cons_iff.mp h with h | ⟨_, heq, -⟩
        · exact ⟨q, hq.symm, (h.cons_cons q).cons_cons p⟩
        · cases heq
          exact absurd rfl hq

theorem nodup_collapse_iff {ps : List Int} : (collapse ps).Nodup ↔ Together ps := by
  constructor
  · intro hnodup p q hsublist
    by_contra hne
    have hchain : [p, q, p].IsChain (· ≠ ·) := by simp [hne, Ne.symm hne]
    have hkept := sublist_collapse hsublist hchain
    have htwice : [p, p] <+ [p, q, p] := (List.sublist_cons_self q [p]).cons_cons p
    exact List.nodup_iff_sublist.mp hnodup p (htwice.trans hkept)
  · intro htogether
    refine List.nodup_iff_sublist.mpr fun p htwice => ?_
    rw [collapse_eq_destutter] at htwice
    obtain ⟨q, hq, hsublist⟩ := exists_interruption htwice (List.isChain_destutter _ ps)
    exact hq (htogether p q (hsublist.trans (List.destutter_sublist _ ps))).symm

/-! ### Reports -/

/-- The priorities of the emissions of one iteration, in the order in which they left. -/
def Report.emittedIn (iteration : Nat) (r : Report) : List Int :=
  (r.emissions.filter (·.iteration == iteration)).map (·.priority)

/-- The distinct items of a list, each once, in the order in which they come first. -/
structure ListsDistinct (order emitted : List Int) : Prop where
  once : order.Nodup
  mem_iff : ∀ p, p ∈ order ↔ p ∈ emitted
  ascending : order.Pairwise fun p q => emitted.idxOf p < emitted.idxOf q

theorem listsDistinct_collapse {ps : List Int} (h : Together ps) :
    ListsDistinct (collapse ps) ps where
  once := nodup_collapse_iff.mpr h
  mem_iff _ := mem_collapse_iff
  ascending := by
    have hnodup := nodup_collapse_iff.mpr h
    refine List.pairwise_iff_getElem.mpr fun i j hi hj hlt => ?_
    rw [← idxOf_collapse_lt_iff, hnodup.idxOf_getElem i hi, hnodup.idxOf_getElem j hj]
    exact hlt

/-- **The order of tensors.** Whatever a report holds besides, the order that it tells of an
iteration is that of the emissions of this iteration without their stuttering. It tells the tensors
that were emitted and no others, and of two of them the one that was emitted first is told first. It
tells each of them once, by first emission, if and only if no tensor is interrupted by another. -/
theorem tensorOrder_listsDistinct_iff (r : Report) (iteration : Nat) :
    let order := r.tensorOrder iteration
    let emitted := r.emittedIn iteration
    order = emitted.destutter (· ≠ ·) ∧
    (∀ p, p ∈ order ↔ p ∈ emitted) ∧
    (∀ p q, order.idxOf p < order.idxOf q ↔ emitted.idxOf p < emitted.idxOf q) ∧
    (ListsDistinct order emitted ↔ Together emitted) :=
  ⟨collapse_eq_destutter _, fun _ => mem_collapse_iff, fun _ _ => idxOf_collapse_lt_iff,
    fun h => nodup_collapse_iff.mp h.once, listsDistinct_collapse⟩

/-! ### An interrupted tensor -/

/-- What an iteration takes, if it comes to its end within so many polls. -/
def takenWithin (polls depth : Nat) (tasks : List Task) (s : Session) : Option (List Task) :=
  match submitAll s tasks with
  | .error _ => none
  | .ok s =>
    match Worker.workWithin tasks.length depth polls { session := s } with
    | some (.ok w) =>
      match Worker.finishBeyond 0 w.session w.inFlight with
      | .error _ => none
      | .ok _ => some w.emitted.toList
    | _ => none

theorem exists_runIteration_of_takenWithin {polls depth : Nat} {tasks taken : List Task}
    {s : Session} (h : takenWithin polls depth tasks s = some taken) :
    ∃ s', runIteration depth tasks s = .ok (s', taken) := by
  unfold takenWithin at h
  split at h
  · cases h
  · rename_i s₁ hsubmit
    split at h
    · rename_i w hwithin
      have hwork := Worker.work_of_workWithin hwithin
      split at h
      · cases h
      · rename_i p hfinish
        cases h
        refine ⟨p.1, ?_⟩
        simp only [runIteration, hsubmit, hwork, hfinish, bind, Except.bind, pure, Except.pure]
    · cases h

/-- Where all emissions are of one iteration, they are those of its tasks. -/
theorem emittedIn_emissionsOf (iteration : Nat) (taken : List Task) (state : Snapshot) :
    ({ emissions := emissionsOf iteration taken, state } : Report).emittedIn iteration =
      taken.map (·.priority) := by
  have hall : ∀ e ∈ emissionsOf iteration taken, (e.iteration == iteration) = true := by
    intro e he
    rw [iteration_of_mem_emissionsOf he, beq_self_eq_true]
  rw [Report.emittedIn, List.filter_eq_self.mpr hall, map_emissionsOf_eq fun _ _ => rfl]

/-- The push stage without a strategy. -/
def plainPush : Queue where
  stage := .push
  strategy := .plain
  gated := false
  scanned := { ordered := false }
  credit := .ofBudget none
  policy := .plain

/-- Two tensors of two partitions each. -/
def pairOptions : Options := { partitions := 2, tensors := 2, seed := 1 }

/-- The tasks of the two tensors. -/
def pairTasks : List Task := synthesize [0, -1] pairOptions.partitions pairOptions.len none

/-- Without a strategy the partitions leave as they were shuffled, here one of the first tensor
before and one behind those of the second. -/
theorem exists_pairRun :
    ∃ report, run {} pairOptions = .ok report ∧ report.emittedIn 0 = [0, -1, -1, 0] := by
  have hwithin : (takenWithin 8 2 (Random.shuffle pairTasks (.ofSeed 1)).1
      { queue := plainPush }).map (·.map (·.priority)) = some [0, -1, -1, 0] := by
    decide +kernel
  obtain ⟨taken, htaken, hmap⟩ := Option.map_eq_some_iff.mp hwithin
  obtain ⟨s, hiteration⟩ := exists_runIteration_of_takenWithin htaken
  have hruns : runIterations 2 pairTasks 1 0 (.ofSeed 1) { queue := plainPush } =
      .ok (emissionsOf 0 taken, s) := by
    simp only [runIterations, hiteration, bind, Except.bind, pure, Except.pure, List.append_nil]
  have hcreate : Queue.create pairOptions.stage {} {} = .ok plainPush := rfl
  have hpriorities : tensorPriorities {} pairOptions.tensors = .ok [0, -1] := by decide +kernel
  have htasks : checkedTasks [0, -1] pairOptions.partitions pairOptions.len none =
      .ok pairTasks := checkedTasks_of_le (by decide) _ _ _
  refine ⟨_, run_of_parts hcreate hpriorities htasks hruns, ?_⟩
  rw [emittedIn_emissionsOf, hmap]

/-- The first tensor of this run is told twice. -/
theorem not_listsDistinct_pairRun :
    ∃ report, run {} pairOptions = .ok report ∧ report.emittedIn 0 = [0, -1, -1, 0] ∧
      report.tensorOrder 0 = [0, -1, 0] ∧
      ¬ ∀ (r : Report) (iteration : Nat),
        ListsDistinct (r.tensorOrder iteration) (r.emittedIn iteration) := by
  obtain ⟨report, hrun, hemitted⟩ := exists_pairRun
  have horder : report.tensorOrder 0 = [0, -1, 0] := by
    rw [Report.tensorOrder, ← Report.emittedIn, hemitted]
    rfl
  refine ⟨report, hrun, hemitted, horder, fun hall => ?_⟩
  have honce := (hall report 0).once
  rw [horder] at honce
  exact absurd honce (by decide)

end TensorDispatch.Rehearsal
