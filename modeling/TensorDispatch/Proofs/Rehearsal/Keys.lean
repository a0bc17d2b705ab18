import Mathlib.Data.List.Nodup
import TensorDispatch.Proofs.Rehearsal.Accounts

/-!
# What the keys of synthetic tasks tell

A key has sixteen bits for the index of a partition, and a tensor may be cut into any number of
partitions.

* `Place`, `places` — the partitions of all tensors by their indices; the synthetic tasks are the
  tasks of these places (`synthesize_eq_map`);
* `partitionKey_shiftRight`, `partitionOfKey_partitionKey` — what the two fields of a key hold. The
  bits of a partition beyond the sixteenth run into the index of its tensor;
* `keys_unique_iff` — the keys are distinct, and each of them tells its place, just where the
  sixteen bits suffice. In a report the partition of an emission is the right one up to these bits.
-/

namespace TensorDispatch.Rehearsal

/-! ### The fields of a key -/

/-- Above its lowest sixteen bits a key holds the tensor, mixed with what is too much of the
partition. -/
theorem partitionKey_shiftRight {tensor : Nat} (h : tensor < tensorBound) (partition : Nat) :
    partitionKey tensor partition >>> partitionBits =
      tensor ||| partition >>> partitionBits := by
  have hfits : tensor <<< partitionBits < wordBound := by
    simp only [tensorBound, wordBound, partitionBits, Nat.shiftLeft_eq] at h ⊢
    omega
  rw [partitionKey, Nat.mod_eq_of_lt hfits, Nat.shiftRight_or_distrib, Nat.shiftLeft_shiftRight]

/-- In its lowest sixteen bits a key holds those of the partition. -/
theorem partitionOfKey_partitionKey (tensor partition : Nat) :
    partitionOfKey (partitionKey tensor partition) = partition % partitionBound := by
  have hlow : (tensor <<< partitionBits) % wordBound % 2 ^ partitionBits = 0 := by
    simp only [wordBound, partitionBits, Nat.shiftLeft_eq]
    omega
  have hor := @Nat.or_mod_two_pow ((tensor <<< partitionBits) % wordBound) partition partitionBits
  rwa [hlow, Nat.zero_or] at hor

/-! ### Places -/

/-- A partition among those of all tensors. -/
structure Place where
  /-- The priority of its tensor. -/
  priority : Int
  /-- The index of its tensor. -/
  tensor : Nat
  /-- Its own index among the partitions of its tensor. -/
  partition : Nat
  deriving DecidableEq, Repr

/-- The partitions of all tensors, tensor by tensor. -/
def places (priorities : List Int) (partitions : Nat) : List Place :=
  priorities.zipIdx.flatMap fun (priority, tensor) =>
    (List.range (max 1 partitions)).map fun partition => { priority, tensor, partition }

/-- The synthetic task of a place. -/
def Place.task (partitions len : Nat) (beginName : Option String) (p : Place) : Task where
  name := tensorName beginName p.tensor
  key := partitionKey p.tensor p.partition
  priority := p.priority
  len := len
  partitions := max 1 partitions
  payload := Payload.ofTensorName (tensorName beginName p.tensor)

/-- The key tells which partition of which tensor this place is. -/
def Place.IsToldBy (p : Place) (key : Nat) : Prop :=
  key >>> partitionBits = p.tensor ∧ partitionOfKey key = p.partition

section

variable {priorities : List Int} {partitions len : Nat} {beginName : Option String}

theorem mem_places_iff {p : Place} :
    p ∈ places priorities partitions ↔
      (p.priority, p.tensor) ∈ priorities.zipIdx ∧ p.partition < max 1 partitions := by
  simp only [places, List.mem_flatMap, List.mem_map, List.mem_range]
  constructor
  · rintro ⟨e, he, partition, hpartition, rfl⟩
    exact ⟨he, hpartition⟩
  · rintro ⟨he, hpartition⟩
    exact ⟨(p.priority, p.tensor), he, p.partition, hpartition, rfl⟩

/-- The synthetic tasks are those of the places, in their order. -/
theorem synthesize_eq_map (priorities : List Int) (partitions len : Nat)
    (beginName : Option String) :
    synthesize priorities partitions len beginName =
      (places priorities partitions).map (Place.task partitions len beginName) := by
  rw [synthesize, places, List.flatMap_def, List.map_flatten, List.map_map]
  refine congrArg List.flatten (List.map_congr_left fun e _ => ?_)
  obtain ⟨priority, tensor⟩ := e
  simp only [partitionsOf, Function.comp_apply, List.map_map]
  rfl

theorem tensor_lt_of_mem_places {p : Place} (h : p ∈ places priorities partitions) :
    p.tensor < priorities.length := by
  simpa using List.snd_lt_of_mem_zipIdx (mem_places_iff.mp h).1

/-- Every tensor has a place for each index of a partition. -/
theorem exists_mem_places {tensor partition : Nat} (ht : tensor < priorities.length)
    (hp : partition < max 1 partitions) :
    ∃ p ∈ places priorities partitions, p.tensor = tensor ∧ p.partition = partition := by
  refine ⟨⟨priorities[tensor], tensor, partition⟩, mem_places_iff.mpr ⟨?_, hp⟩, rfl, rfl⟩
  exact List.mem_zipIdx_iff_getElem?.mpr (List.getElem?_eq_getElem ht)

/-! ### What keys tell -/

/-- A key tells its place just where sixteen bits hold the index of the partition. -/
theorem isToldBy_key_iff {p : Place} (h : p.tensor < tensorBound) :
    p.IsToldBy (p.task partitions len beginName).key ↔ p.partition < partitionBound := by
  simp only [Place.IsToldBy, Place.task, partitionKey_shiftRight h, partitionOfKey_partitionKey]
  constructor
  · rintro ⟨-, hlow⟩
    rw [← hlow]
    exact Nat.mod_lt _ (by decide)
  · intro hp
    rw [Nat.shiftRight_eq_zero p.partition partitionBits hp, Nat.or_zero, Nat.mod_eq_of_lt hp]
    exact ⟨rfl, rfl⟩

/-- The first partition beyond sixteen bits has the key of the next tensor. -/
theorem partitionKey_overrun : partitionKey 0 partitionBound = partitionKey 1 0 := by
  decide

/-- With two tensors, and partitions beyond sixteen bits, a key is given twice. -/
theorem not_nodup_keys_of_lt (hpartitions : partitionBound < partitions)
    (htensors : 1 < priorities.length) :
    ¬ ((synthesize priorities partitions len beginName).map Task.key).Nodup := by
  intro hnodup
  rw [synthesize_eq_map, List.map_map] at hnodup
  have hlast : partitionBound < max 1 partitions := by omega
  have hfirst : 0 < max 1 partitions := by omega
  obtain ⟨p, hp, hp₁, hp₂⟩ := exists_mem_places (Nat.zero_lt_of_lt htensors) hlast
  obtain ⟨q, hq, hq₁, hq₂⟩ := exists_mem_places htensors hfirst
  have hkeys : (p.task partitions len beginName).key = (q.task partitions len beginName).key := by
    simp only [Place.task, hp₁, hp₂, hq₁, hq₂, partitionKey_overrun]
  have heq : p = q := List.inj_on_of_nodup_map hnodup hp hq hkeys
  rw [heq, hq₁] at hp₁
  exact Nat.one_ne_zero hp₁

/-- The keys of one tensor are the indices of its partitions. -/
theorem map_key_synthesize_singleton (priority : Int) :
    (synthesize [priority] partitions len beginName).map Task.key =
      List.range (max 1 partitions) := by
  have hkey : ∀ partition, partitionKey 0 partition = partition := by
    intro partition
    simp [partitionKey]
  rw [synthesize_eq_map, List.map_map]
  simp [places, Place.task, Function.comp_def, hkey]

/-- The keys are distinct just where sixteen bits suffice, or there is no second tensor to run
into. -/
theorem nodup_keys_iff (hlength : priorities.length ≤ tensorBound) :
    ((synthesize priorities partitions len beginName).map Task.key).Nodup ↔
      partitions ≤ partitionBound ∨ priorities.length ≤ 1 := by
  constructor
  · intro hnodup
    by_contra hboth
    obtain ⟨hpartitions, htensors⟩ := not_or.mp hboth
    exact not_nodup_keys_of_lt (Nat.lt_of_not_le hpartitions) (Nat.lt_of_not_le htensors) hnodup
  · rintro (hpartitions | htensors)
    · exact nodup_keys_synthesize hpartitions hlength
    · match priorities, htensors with
      | [], _ => simp [synthesize]
      | [priority], _ =>
        rw [map_key_synthesize_singleton]
        exact List.nodup_range

/-- Every key tells its place just where sixteen bits suffice, or there is no tensor. -/
theorem forall_isToldBy_key_iff (hlength : priorities.length ≤ tensorBound) :
    (∀ p ∈ places priorities partitions, p.IsToldBy (p.task partitions len beginName).key) ↔
      partitions ≤ partitionBound ∨ priorities = [] := by
  have htensor : ∀ p ∈ places priorities partitions, p.tensor < tensorBound := fun p hp =>
    Nat.lt_of_lt_of_le (tensor_lt_of_mem_places hp) hlength
  constructor
  · intro hall
    by_contra hboth
    obtain ⟨hpartitions, hne⟩ := not_or.mp hboth
    have hbeyond : partitionBound < max 1 partitions := by omega
    obtain ⟨p, hp, -, hpartition⟩ := exists_mem_places (List.length_pos_iff.mpr hne) hbeyond
    have hlt := (isToldBy_key_iff (htensor p hp)).mp (hall p hp)
    exact Nat.lt_irrefl _ (hpartition ▸ hlt)
  · intro h p hp
    obtain ⟨hmem, hpartition⟩ := mem_places_iff.mp hp
    rcases h with hpartitions | rfl
    · have hone : 1 ≤ partitionBound := by decide
      exact (isToldBy_key_iff (htensor p hp)).mpr (by omega)
    · cases hmem

/-! ### What reports tell -/

/-- Every emission of a report is that of a task of the rehearsal. -/
theorem exists_task_of_mem_emissions {config : Config} {options : Options} {report : Report}
    (h : run config options = .ok report)
    (hpriorities : tensorPriorities config.queue options.tensors = .ok priorities) {e : Emission}
    (he : e ∈ report.emissions) :
    ∃ t ∈ synthesize priorities options.partitions options.len config.queue.beginName,
      (e.name, e.key, e.priority, e.partition) =
        (t.name, t.key, t.priority, partitionOfKey t.key) := by
  obtain ⟨queue, priorities', s, -, hpriorities', -, -, -, hsettles, hemissions, -⟩ :=
    run_settles h
  cases hpriorities.symm.trans hpriorities'
  rw [hemissions, emissionsFrom, List.mem_flatMap] at he
  obtain ⟨⟨deeds, k⟩, hdeeds, he⟩ := he
  have hfields := List.mem_map_of_mem
    (f := fun e : Emission => (e.name, e.key, e.priority, e.partition)) he
  rw [map_fields_emissionsOf] at hfields
  obtain ⟨t, ht, heq⟩ := List.mem_map.mp hfields
  have hsettled := hsettles deeds (List.fst_mem_of_mem_zipIdx hdeeds)
  exact ⟨t, hsettled.taken.mem_iff.mp ht, heq.symm⟩

/-- **Keys of synthetic tasks.** For as many tensors as a key can number, the keys of their tasks
are distinct if and only if a tensor has at most 65536 partitions or there is one tensor at most,
and every key tells its tensor above the lowest sixteen bits and its partition in them if and only
if a tensor has at most 65536 partitions or there is none at all. Whatever their number, the upper
bits hold the index of the tensor mixed with what is too much of the partition, and the lower ones,
which a report gives as the partition of an emission, hold the partition modulo 65536. -/
theorem keys_unique_iff (hlength : priorities.length ≤ tensorBound) (partitions len : Nat)
    (beginName : Option String) :
    let tasks := synthesize priorities partitions len beginName
    tasks = (places priorities partitions).map (Place.task partitions len beginName) ∧
    ((tasks.map Task.key).Nodup ↔ partitions ≤ partitionBound ∨ priorities.length ≤ 1) ∧
    ((∀ p ∈ places priorities partitions, p.IsToldBy (p.task partitions len beginName).key) ↔
      partitions ≤ partitionBound ∨ priorities = []) ∧
    (∀ p ∈ places priorities partitions,
      (p.task partitions len beginName).key >>> partitionBits =
          p.tensor ||| p.partition >>> partitionBits ∧
        partitionOfKey (p.task partitions len beginName).key = p.partition % partitionBound) ∧
    ∀ (config : Config) (options : Options) (report : Report),
      run config options = .ok report →
      tensorPriorities config.queue options.tensors = .ok priorities →
      ∀ e ∈ report.emissions, ∃ p ∈ places priorities options.partitions,
        let t := p.task options.partitions options.len config.queue.beginName
        (e.name, e.key, e.priority) = (t.name, t.key, t.priority) ∧
          e.partition = p.partition % partitionBound := by
  refine ⟨synthesize_eq_map .., nodup_keys_iff hlength, forall_isToldBy_key_iff hlength, ?_, ?_⟩
  · intro p hp
    have htensor := Nat.lt_of_lt_of_le (tensor_lt_of_mem_places hp) hlength
    exact ⟨partitionKey_shiftRight htensor _, partitionOfKey_partitionKey _ _⟩
  · intro config options report hrun hpriorities e he
    obtain ⟨t, ht, hfields⟩ := exists_task_of_mem_emissions hrun hpriorities he
    rw [synthesize_eq_map] at ht
    obtain ⟨p, hp, rfl⟩ := List.mem_map.mp ht
    simp only [Prod.mk.injEq] at hfields
    obtain ⟨hname, hkey, hpriority, hpartition⟩ := hfields
    refine ⟨p, hp, ?_, ?_⟩
    · rw [hname, hkey, hpriority]
    · rw [hpartition]
      exact partitionOfKey_partitionKey p.tensor p.partition

end

/-- With as many partitions as keys can tell, two tensors have keys of their own; with one more they
share one. -/
theorem keys_unique_iff_twoTensors :
    [0, -1].length ≤ tensorBound ∧
      ((synthesize [0, -1] 65536 8 none).map Task.key).Nodup ∧
      ¬ ((synthesize [0, -1] 65537 8 none).map Task.key).Nodup := by
  have hlength : ([0, -1] : List Int).length ≤ tensorBound := by decide
  obtain ⟨-, hmost, -⟩ := keys_unique_iff hlength 65536 8 none
  obtain ⟨-, hmore, -⟩ := keys_unique_iff hlength 65537 8 none
  exact ⟨hlength, hmost.mpr (by decide), fun hnodup => absurd (hmore.mp hnodup) (by decide)⟩

/-- The last partition of the first of two tensors and the first partition of the second one, where
a tensor has 65537 of them, have the same key. It tells the second of the two. -/
theorem not_isToldBy_overrun :
    let last : Place := { priority := 0, tensor := 0, partition := 65536 }
    let first : Place := { priority := -1, tensor := 1, partition := 0 }
    last ∈ places [0, -1] 65537 ∧ first ∈ places [0, -1] 65537 ∧
      (last.task 65537 8 none).key = 65536 ∧ (first.task 65537 8 none).key = 65536 ∧
      first.IsToldBy 65536 ∧ ¬ last.IsToldBy 65536 ∧
      ¬ ∀ (priorities : List Int) (partitions len : Nat) (beginName : Option String),
        priorities.length < tensorBound →
        ((synthesize priorities partitions len beginName).map Task.key).Nodup ∧
          ∀ p ∈ places priorities partitions,
            p.IsToldBy (p.task partitions len beginName).key := by
  intro last first
  refine ⟨mem_places_iff.mpr (by decide), mem_places_iff.mpr (by decide), by decide, by decide,
    ⟨rfl, rfl⟩, ?_, ?_⟩
  · rintro ⟨htensor, -⟩
    cases htensor
  · intro hall
    obtain ⟨hnodup, -⟩ := hall [0, -1] 65537 8 none (by decide)
    exact not_nodup_keys_of_lt (by decide) (by decide) hnodup

end TensorDispatch.Rehearsal
