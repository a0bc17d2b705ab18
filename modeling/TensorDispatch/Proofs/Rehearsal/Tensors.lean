import TensorDispatch.Proofs.Replay.Line
import TensorDispatch.Rehearsal.Tensors

/-!
# The line of synthetic tensors

What a rehearsal submits is a line of whole tensors.

* `partitionKey_eq` — the keys of a tensor lie in a range of their own;
* `synthesize_eq` — synthetic tasks are the partitions of a line of tensors (`tensorLine`), in the
  order of ascending keys;
* `tensorPriorities_of_schedule` — the line keeps to the schedule of the configuration, with
  priorities below all tokens for the fillers.
-/

namespace TensorDispatch.Rehearsal

/-! ### Keys -/

/-- One past the largest index that a tensor can have in its keys. -/
def tensorBound : Nat := 0x1000000000000

/-- One past the largest index that a partition can have in its key. -/
def partitionBound : Nat := 0x10000

/-- The key of a partition, without a loss of bits. -/
theorem partitionKey_eq {tensor partition : Nat} (ht : tensor < tensorBound)
    (hp : partition < partitionBound) :
    partitionKey tensor partition = tensor * partitionBound + partition := by
  have hshift : tensor <<< partitionBits = tensor * partitionBound := Nat.shiftLeft_eq _ _
  have hfits : tensor <<< partitionBits < wordBound := by
    simp only [tensorBound, partitionBound, wordBound] at ht hshift ⊢
    omega
  have hor := Nat.shiftLeft_add_eq_or_of_lt (i := partitionBits) (b := partition) hp tensor
  rw [partitionKey, Nat.mod_eq_of_lt hfits, ← hor, hshift]

/-! ### Names -/

theorem exists_tensorName_eq (beginName : Option String) (tensor : Nat) :
    ∃ stem, tensorName beginName tensor = stem ++ "_gradient" := by
  unfold tensorName
  split
  · exact ⟨_, rfl⟩
  · exact ⟨_, rfl⟩

theorem isEmpty_tensorName (beginName : Option String) (tensor : Nat) :
    (tensorName beginName tensor).isEmpty = false := by
  obtain ⟨stem, hname⟩ := exists_tensorName_eq beginName tensor
  rw [hname]
  simp

/-- Every synthetic tensor carries a gradient. -/
theorem payload_tensorName (beginName : Option String) (tensor : Nat) :
    Payload.ofTensorName (tensorName beginName tensor) = .gradient := by
  obtain ⟨stem, hname⟩ := exists_tensorName_eq beginName tensor
  have hoccurs : Text.occurs "gradient" (tensorName beginName tensor) = true := by
    rw [Text.occurs, Text.occursIn_iff, hname, String.toList_append]
    exact ⟨stem.toList ++ ['_'], [], by simp⟩
  rw [Payload.ofTensorName, if_pos hoccurs]

/-! ### Tensors -/

theorem length_partitionsOf (partitions len : Nat) (beginName : Option String) (tensor : Nat)
    (priority : Int) :
    (partitionsOf partitions len beginName tensor priority).length = partitions := by
  rw [partitionsOf, List.length_map, List.length_range]

/-- What all partitions of a tensor have in common. -/
theorem eq_of_mem_partitionsOf {partitions len : Nat} {beginName : Option String} {tensor : Nat}
    {priority : Int} {t : Task} (h : t ∈ partitionsOf partitions len beginName tensor priority) :
    t.priority = priority ∧ t.partitions = partitions ∧ t.flag = none := by
  obtain ⟨partition, -, rfl⟩ := List.mem_map.mp h
  exact ⟨rfl, rfl, rfl⟩

section

variable (partitions len : Nat) (beginName : Option String)

/-- A synthetic tensor, with all its partitions. -/
def tensorOf (tensor : Nat) (priority : Int) : Tensor where
  priority := priority
  parts := partitionsOf (max 1 partitions) len beginName tensor priority
  nonempty := by
    refine List.ne_nil_of_length_pos ?_
    rw [length_partitionsOf]
    omega
  ofPriority t ht := (eq_of_mem_partitionsOf ht).1
  whole t ht := by rw [length_partitionsOf, (eq_of_mem_partitionsOf ht).2.1]
  unflagged t ht := (eq_of_mem_partitionsOf ht).2.2

/-- The line of the synthetic tensors with these priorities. -/
def tensorLine (priorities : List Int) : List Tensor :=
  priorities.zipIdx.map fun (priority, tensor) =>
    tensorOf partitions len beginName tensor priority

theorem synthesize_eq (priorities : List Int) :
    synthesize priorities partitions len beginName =
      Tensor.partsOf (tensorLine partitions len beginName priorities) := by
  rw [synthesize, tensorLine, Tensor.partsOf, List.flatMap_def, List.map_map]
  rfl

@[simp] theorem length_tensorLine (priorities : List Int) :
    (tensorLine partitions len beginName priorities).length = priorities.length := by
  simp [tensorLine]

@[simp] theorem map_priority_tensorLine (priorities : List Int) :
    (tensorLine partitions len beginName priorities).map Tensor.priority = priorities := by
  simp [tensorLine, tensorOf, Function.comp_def, List.zipIdx_map_fst]

variable {partitions len beginName}

/-- A synthetic task has a name and carries a gradient. -/
theorem gradient_of_mem_synthesize {priorities : List Int} {t : Task}
    (h : t ∈ synthesize priorities partitions len beginName) :
    t.name.isEmpty = false ∧ t.isGradient = true := by
  obtain ⟨_, hparts, ht⟩ := List.mem_flatten.mp h
  obtain ⟨⟨priority, tensor⟩, -, rfl⟩ := List.mem_map.mp hparts
  obtain ⟨partition, -, rfl⟩ := List.mem_map.mp ht
  refine ⟨isEmpty_tensorName beginName tensor, ?_⟩
  rw [Task.isGradient, payload_tensorName]
  rfl

/-- Synthetic tasks wait for no flag, and are of one length. -/
theorem uniform_of_mem_synthesize {priorities : List Int} {t : Task}
    (h : t ∈ synthesize priorities partitions len beginName) : t.flag = none ∧ t.len = len := by
  obtain ⟨_, hparts, ht⟩ := List.mem_flatten.mp h
  obtain ⟨⟨priority, tensor⟩, -, rfl⟩ := List.mem_map.mp hparts
  obtain ⟨partition, -, rfl⟩ := List.mem_map.mp ht
  exact ⟨rfl, rfl⟩

/-- Every tensor has a partition. -/
theorem synthesize_ne_nil {priorities : List Int} (h : priorities ≠ []) :
    synthesize priorities partitions len beginName ≠ [] := by
  rw [synthesize_eq, Ne, Tensor.partsOf_eq_nil_iff, ← List.length_eq_zero_iff, length_tensorLine,
    List.length_eq_zero_iff]
  exact h

/-- The keys of a tensor lie in the range of its index. -/
theorem key_of_mem_parts (hpartitions : partitions ≤ partitionBound) {tensor : Nat} {priority : Int}
    (htensor : tensor < tensorBound) {t : Task}
    (h : t ∈ (tensorOf partitions len beginName tensor priority).parts) :
    tensor * partitionBound ≤ t.key ∧ t.key < (tensor + 1) * partitionBound := by
  obtain ⟨partition, hmem, rfl⟩ := List.mem_map.mp h
  rw [List.mem_range] at hmem
  simp only [partitionBound] at hpartitions
  rw [partitionKey_eq htensor (by simp only [partitionBound]; omega)]
  simp only [partitionBound]
  omega

theorem ascending_parts (hpartitions : partitions ≤ partitionBound) {tensor : Nat} (priority : Int)
    (htensor : tensor < tensorBound) :
    (tensorOf partitions len beginName tensor priority).parts.Pairwise
      fun t u => t.key < u.key := by
  refine List.pairwise_map.mpr (List.pairwise_lt_range.imp_of_mem fun {p p'} hp hp' hlt => ?_)
  rw [List.mem_range] at hp hp'
  simp only [partitionBound] at hpartitions
  rw [partitionKey_eq htensor (by simp only [partitionBound]; omega),
    partitionKey_eq htensor (by simp only [partitionBound]; omega)]
  exact Nat.add_lt_add_left hlt _

/-- Along the line the keys ascend. -/
theorem ascending_tensorLine (hpartitions : partitions ≤ partitionBound) {priorities : List Int}
    (hlength : priorities.length ≤ tensorBound) :
    (Tensor.partsOf (tensorLine partitions len beginName priorities)).Pairwise
      fun t u => t.key < u.key := by
  have hindex : ∀ e ∈ priorities.zipIdx, e.2 < tensorBound := by
    intro e he
    have hlt := List.snd_lt_of_mem_zipIdx he
    omega
  have hindices : priorities.zipIdx.Pairwise fun e f => e.2 < f.2 := by
    have hrange : (priorities.zipIdx.map Prod.snd).Pairwise (· < ·) := by
      rw [List.zipIdx_map_snd]
      exact List.pairwise_lt_range'
    exact List.pairwise_map.mp hrange
  refine List.pairwise_flatMap.mpr ⟨?_, ?_⟩
  · intro x hx
    obtain ⟨e, he, rfl⟩ := List.mem_map.mp hx
    exact ascending_parts hpartitions e.1 (hindex e he)
  · refine List.pairwise_map.mpr (hindices.imp_of_mem fun {e f} he hf hlt => ?_)
    intro t ht u hu
    obtain ⟨-, hupper⟩ := key_of_mem_parts hpartitions (hindex e he) ht
    obtain ⟨hlower, -⟩ := key_of_mem_parts hpartitions (hindex f hf) hu
    have hranges : (e.2 + 1) * partitionBound ≤ f.2 * partitionBound :=
      Nat.mul_le_mul_right _ hlt
    omega

/-- Synthetic tasks have keys of their own, as far as keys can tell their tensors apart. -/
theorem nodup_keys_synthesize (hpartitions : partitions ≤ partitionBound) {priorities : List Int}
    (hlength : priorities.length ≤ tensorBound) :
    ((synthesize priorities partitions len beginName).map Task.key).Nodup := by
  rw [synthesize_eq, List.nodup_iff_pairwise_ne, List.pairwise_map]
  exact (ascending_tensorLine hpartitions hlength).imp Nat.ne_of_lt

end

/-! ### Priorities -/

/-- Counting down goes from the highest to the lowest, below its start. -/
theorem descending_countDown (top : Int) (n : Nat) : (countDown top n).Pairwise (· > ·) := by
  refine List.pairwise_map.mpr (List.pairwise_lt_range.imp fun {i j} hlt => ?_)
  omega

theorem le_of_mem_countDown {top p : Int} {n : Nat} (h : p ∈ countDown top n) : p ≤ top := by
  obtain ⟨i, -, rfl⟩ := List.mem_map.mp h
  omega

theorem signedCount_of_le {n : Nat} (h : n ≤ tensorBound) : signedCount n = n := by
  have hsigned : IsSigned n := by
    simp only [tensorBound] at h
    exact ⟨by omega, by omega⟩
  rw [signedCount, wrapSigned_of_isSigned hsigned, Int.toNat_natCast]

/-- The priorities of a schedule are its tokens and, below them, those of the fillers. -/
theorem tensorPriorities_of_schedule {config : QueueConfig} {schedule : Schedule}
    (h : config.schedule = some schedule) (htokens : schedule.tokens ≠ [])
    (hcount : schedule.tokens.length ≤ schedule.totalTensors)
    (htotal : schedule.totalTensors ≤ tensorBound)
    (hlow : ∀ p ∈ schedule.tokens,
      IsSigned (p - (schedule.totalTensors - schedule.tokens.length : Nat)))
    (fallback : Nat) :
    ∃ fillers, tensorPriorities config fallback = .ok (schedule.tokens ++ fillers) ∧
      (schedule.tokens ++ fillers).length = schedule.totalTensors ∧
      (∀ p ∈ fillers, p ∉ schedule.tokens) ∧ fillers.Pairwise (· > ·) := by
  obtain ⟨floor, hfloor⟩ := Option.isSome_iff_exists.mp (List.isSome_min?_of_ne_nil htokens)
  obtain ⟨hmem, hmin⟩ := List.min?_eq_some_iff.mp hfloor
  have hextra : signedCount (schedule.totalTensors - schedule.tokens.length) =
      schedule.totalTensors - schedule.tokens.length :=
    signedCount_of_le (Nat.le_trans (Nat.sub_le _ _) htotal)
  have hfits : FitsMemory priorityBytes
      (schedule.tokens.length + (schedule.totalTensors - schedule.tokens.length)) := by
    simp only [FitsMemory, priorityBytes, listBytes, tensorBound] at htotal ⊢
    omega
  refine ⟨countDown (floor - 1) (schedule.totalTensors - schedule.tokens.length), ?_, ?_, ?_,
    descending_countDown _ _⟩
  · simp only [tensorPriorities, h, hfloor, Option.getD_some, hextra, checkList, if_pos hfits,
      if_pos (hlow floor hmem)]
    rfl
  · rw [List.length_append, length_countDown]
    omega
  · intro p hp htoken
    have hbelow := le_of_mem_countDown hp
    have habove := hmin p htoken
    omega

/-- Synthetic tensors with the priorities of a schedule line up behind it. -/
theorem linesUp_tensorLine {schedule : Schedule} {fillers : List Int}
    (hboundary : schedule.boundary ∈ schedule.tokens)
    (hlength : (schedule.tokens ++ fillers).length = schedule.totalTensors)
    (htotal : schedule.totalTensors ≤ tensorBound) (hunnamed : ∀ p ∈ fillers, p ∉ schedule.tokens)
    (hdescending : fillers.Pairwise (· > ·)) {partitions : Nat}
    (hpartitions : partitions ≤ partitionBound) (len : Nat) (beginName : Option String) :
    schedule.LinesUp fillers
      (tensorLine partitions len beginName (schedule.tokens ++ fillers)) where
  priorities := map_priority_tensorLine ..
  total := by rw [length_tensorLine, hlength]
  unnamed := hunnamed
  descending := hdescending
  boundary := hboundary
  ascending := ascending_tensorLine hpartitions (by rwa [hlength])

/-- The tasks of a rehearsal have a place in memory. -/
theorem checkedTasks_of_le {partitions : Nat} (h : partitions ≤ partitionBound)
    (priorities : List Int) (len : Nat) (beginName : Option String) :
    checkedTasks priorities partitions len beginName =
      .ok (synthesize priorities partitions len beginName) := by
  have hfits : FitsMemory taskBytes (max 1 partitions) := by
    simp only [FitsMemory, taskBytes, listBytes, partitionBound] at h ⊢
    omega
  cases priorities with
  | nil => rfl
  | cons p ps => simp [checkedTasks, checkList, hfits, bind, Except.bind, pure, Except.pure]

end TensorDispatch.Rehearsal
