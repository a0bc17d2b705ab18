import Mathlib.Data.List.Nodup
import TensorDispatch.Pending.Slots
import TensorDispatch.Proofs.Pending

/-!
# Pending tasks by slots are a stable sorted sequence

A map of tasks by slots does what a pending store does, for as long as no number is given twice.

* `Slots.Sound` — every task has its own slot, with a number that has been given;
* `Slots.Sound.range_eq_filter` — the lookup from the least slot of a priority on finds all of its
  tasks;
* `Slots.ActsAs` — each operation does to the tasks of the map what that of a pending store does;
* `Slots.act` — one call. It keeps a map sound (`Slots.Sound.act`), and so does a run
  (`Slots.sound_after`);
* `Slots.slots_stable_sorted` — along every run the map lists what is left of the insertions, sorted
  and stable, and acts as a pending store.
-/

namespace TensorDispatch

open scoped List

/-! ### The order of slots -/

theorem Slot.Precedes.trans {a b c : Slot} (h : a.Precedes b) (h' : b.Precedes c) :
    a.Precedes c := by
  unfold Slot.Precedes at *
  omega

theorem Slot.Precedes.ne {a b : Slot} (h : a.Precedes b) : a ≠ b := by
  rintro rfl
  unfold Slot.Precedes at h
  omega

theorem Slot.precedes_of_not_precedes {a b : Slot} (h : ¬ a.Precedes b) (hne : a ≠ b) :
    b.Precedes a := by
  obtain ⟨p, k, n⟩ := a
  obtain ⟨p', k', n'⟩ := b
  simp only [ne_eq, Slot.mk.injEq] at hne
  simp only [Slot.Precedes] at h ⊢
  omega

/-- The least possible slot of a priority stands behind those of the larger priorities alone. -/
theorem Slot.precedes_least_iff {a : Slot} {priority : Int} :
    a.Precedes { priority, key := 0, number := 0 } ↔ priority < a.priority := by
  simp [Slot.Precedes]

namespace Slots

variable {s s' s'' : Slots} {t : Task} {slot : Slot} {e f : Slot × Task}
  {es : List (Slot × Task)} {ts us : List Task}

/-- The tasks of the map, each with the number of its insertion. -/
def numbered (s : Slots) : List (Task × Nat) := s.entries.map fun e => (e.2, e.1.number)

/-- The tasks of one priority with their slots, in order. -/
def ofPriority (priority : Int) (s : Slots) : List (Slot × Task) :=
  s.entries.filter fun e => e.2.priority == priority

@[simp] theorem number_slotOf (ordered : Bool) (t : Task) (n : Nat) :
    (slotOf ordered t n).number = n := by
  cases ordered <;> rfl

/-- Slots are in the order of a store with numbers. -/
theorem slotOf_precedes_slotOf_iff {ordered : Bool} {t u : Task} {m n : Nat} :
    (slotOf ordered t m).Precedes (slotOf ordered u n) ↔
      Pending.Precedes ordered (t, m) (u, n) := by
  cases ordered with
  | true => simp [Pending.precedes_ordered_iff, slotOf, Slot.Precedes]
  | false => simp [Pending.Precedes, slotOf, Slot.Precedes]

/-! ### A task in a free slot -/

theorem perm_put (hfree : ∀ e ∈ es, e.1 ≠ slot) : (put slot t es).Perm ((slot, t) :: es) := by
  induction es with
  | nil => exact .refl _
  | cons e es ih =>
    rw [put]
    split
    · exact .refl _
    · rw [if_neg (hfree e List.mem_cons_self).symm]
      exact ((ih fun f hf => hfree f (List.mem_cons_of_mem e hf)).cons e).trans (.swap _ _ _)

theorem pairwise_put (hsorted : es.Pairwise fun e f => e.1.Precedes f.1)
    (hfree : ∀ e ∈ es, e.1 ≠ slot) :
    (put slot t es).Pairwise fun e f => e.1.Precedes f.1 := by
  induction es with
  | nil => exact List.pairwise_singleton _ _
  | cons e es ih =>
    obtain ⟨hhead, htail⟩ := List.pairwise_cons.mp hsorted
    have hfree' : ∀ f ∈ es, f.1 ≠ slot := fun f hf => hfree f (List.mem_cons_of_mem e hf)
    have hne : slot ≠ e.1 := (hfree e List.mem_cons_self).symm
    rw [put]
    by_cases hfront : slot.Precedes e.1
    -- the slot is in front of `e`, and so of all that `e` is in front of
    · rw [if_pos hfront]
      refine List.pairwise_cons.mpr ⟨fun f hf => ?_, hsorted⟩
      rcases List.mem_cons.mp hf with rfl | hf
      · exact hfront
      · exact hfront.trans (hhead f hf)
    · rw [if_neg hfront, if_neg hne]
      refine List.pairwise_cons.mpr ⟨fun f hf => ?_, ih htail hfree'⟩
      rcases List.mem_cons.mp ((perm_put hfree').mem_iff.mp hf) with rfl | hf
      · exact Slot.precedes_of_not_precedes hfront hne
      · exact hhead f hf

/-- Where slots go by tasks, a task is put in front of those that it goes before. -/
theorem map_snd_put (hfree : ∀ e ∈ es, e.1 ≠ slot)
    (hbefore : ∀ e ∈ es, slot.Precedes e.1 ↔ t.Before e.2) :
    (put slot t es).map Prod.snd = Pending.place t (es.map Prod.snd) := by
  induction es with
  | nil => rfl
  | cons e es ih =>
    have hrest := ih (fun f hf => hfree f (List.mem_cons_of_mem e hf))
      fun f hf => hbefore f (List.mem_cons_of_mem e hf)
    have he := hbefore e List.mem_cons_self
    rw [put, List.map_cons, Pending.place]
    by_cases hfront : slot.Precedes e.1
    · rw [if_pos hfront, if_pos (he.mp hfront)]
      rfl
    · rw [if_neg hfront, if_neg (hfree e List.mem_cons_self).symm, if_neg (mt he.mpr hfront),
        List.map_cons, hrest]

/-- A slot behind all others comes last. -/
theorem put_of_not_precedes (hfree : ∀ e ∈ es, e.1 ≠ slot)
    (hbehind : ∀ e ∈ es, ¬ slot.Precedes e.1) : put slot t es = es ++ [(slot, t)] := by
  induction es with
  | nil => rfl
  | cons e es ih =>
    rw [put, if_neg (hbehind e List.mem_cons_self), if_neg (hfree e List.mem_cons_self).symm,
      ih (fun f hf => hfree f (List.mem_cons_of_mem e hf))
        fun f hf => hbehind f (List.mem_cons_of_mem e hf), List.cons_append]

/-! ### Sound maps -/

/-- Every task has its own slot, with a number that has been given. -/
structure Sound (s : Slots) : Prop where
  sorted : s.entries.Pairwise fun e f => e.1.Precedes f.1
  slots : ∀ e ∈ s.entries, e.1 = slotOf s.ordered e.2 e.1.number
  below : ∀ e ∈ s.entries, e.1.number < s.next

theorem sound_empty (ordered : Bool) : ({ ordered } : Slots).Sound where
  sorted := .nil
  slots := by simp
  below := by simp

theorem Sound.precedes_iff (h : s.Sound) (he : e ∈ s.entries) (hf : f ∈ s.entries) :
    e.1.Precedes f.1 ↔ Pending.Precedes s.ordered (e.2, e.1.number) (f.2, f.1.number) := by
  rw [← slotOf_precedes_slotOf_iff, ← h.slots e he, ← h.slots f hf]

/-- A sound map lists its tasks sorted and stable. -/
theorem Sound.isNumbering (h : s.Sound) : s.toPending.IsNumbering s.numbered where
  tasks := by simp [numbered, toPending, Function.comp_def]
  sorted := by
    rw [numbered, List.pairwise_map]
    exact h.sorted.imp_of_mem fun he hf hprecedes => (h.precedes_iff he hf).mp hprecedes

/-- The slot of a new task is free. -/
theorem Sound.free (h : s.Sound) (t : Task) : ∀ e ∈ s.entries, e.1 ≠ slotOf s.ordered t s.next := by
  intro e he heq
  have hbelow := h.below e he
  rw [heq, number_slotOf] at hbelow
  exact Nat.lt_irrefl _ hbelow

theorem Sound.perm_insert (h : s.Sound) (t : Task) :
    (s.insert t).entries.Perm ((slotOf s.ordered t s.next, t) :: s.entries) :=
  perm_put (h.free t)

theorem next_insert (hroom : s.next + 1 < wordBound) (t : Task) :
    (s.insert t).next = s.next + 1 :=
  Nat.mod_eq_of_lt hroom

/-- An insertion gives a number that no task has yet. -/
theorem Sound.insert (h : s.Sound) (hroom : s.next + 1 < wordBound) (t : Task) :
    (s.insert t).Sound where
  sorted := pairwise_put h.sorted (h.free t)
  slots e he := by
    rcases List.mem_cons.mp ((h.perm_insert t).mem_iff.mp he) with rfl | he
    · simp [Slots.insert]
    · exact h.slots e he
  below e he := by
    rw [next_insert hroom]
    rcases List.mem_cons.mp ((h.perm_insert t).mem_iff.mp he) with rfl | he
    · simp
    · exact Nat.lt_succ_of_lt (h.below e he)

/-- An insertion puts a task where that into a pending store does. -/
theorem Sound.toPending_insert (h : s.Sound) (t : Task) :
    (s.insert t).toPending = s.toPending.insert t := by
  have hfree := h.free t
  cases hordered : s.ordered with
  | true =>
    have hbefore : ∀ e ∈ s.entries, (slotOf true t s.next).Precedes e.1 ↔ t.Before e.2 := by
      intro e he
      have hslot := h.slots e he
      have hbelow := h.below e he
      rw [hordered] at hslot
      rw [hslot, slotOf_precedes_slotOf_iff, Pending.precedes_ordered_iff]
      dsimp only [Task.Before]
      omega
    rw [hordered] at hfree
    simp [Slots.insert, toPending, Pending.insert, hordered, map_snd_put hfree hbefore]
  | false =>
    have hbehind : ∀ e ∈ s.entries, ¬ (slotOf false t s.next).Precedes e.1 := by
      intro e he
      have hslot := h.slots e he
      have hbelow := h.below e he
      rw [hordered] at hslot
      rw [hslot, slotOf_precedes_slotOf_iff]
      simp only [Pending.Precedes, Bool.false_eq_true, if_false]
      omega
    rw [hordered] at hfree
    simp [Slots.insert, toPending, Pending.insert, hordered, put_of_not_precedes hfree hbehind]

/-! ### What a call takes out -/

/-- The second map is what is left of the first one when these tasks have been taken out. -/
structure Leaves (s : Slots) (ts : List Task) (s' : Slots) : Prop where
  ordered : s'.ordered = s.ordered
  next : s'.next = s.next
  sublist : s'.entries.Sublist s.entries
  perm : ∃ taken, taken.map Prod.snd = ts ∧ (s'.entries ++ taken).Perm s.entries

theorem Leaves.refl (s : Slots) : s.Leaves [] s where
  ordered := rfl
  next := rfl
  sublist := .refl _
  perm := ⟨[], rfl, by simp⟩

theorem Leaves.trans (h : s.Leaves ts s') (h' : s'.Leaves us s'') : s.Leaves (ts ++ us) s'' where
  ordered := h'.ordered.trans h.ordered
  next := h'.next.trans h.next
  sublist := h'.sublist.trans h.sublist
  perm := by
    obtain ⟨taken, htaken, hperm⟩ := h.perm
    obtain ⟨taken', htaken', hperm'⟩ := h'.perm
    refine ⟨taken ++ taken', by rw [List.map_append, htaken, htaken'], ?_⟩
    calc s''.entries ++ (taken ++ taken')
        ~ s''.entries ++ (taken' ++ taken) := List.perm_append_comm.append_left _
      _ = s''.entries ++ taken' ++ taken := (List.append_assoc ..).symm
      _ ~ s'.entries ++ taken := hperm'.append_right taken
      _ ~ s.entries := hperm

/-- Every part of a sound map is sound. -/
theorem Sound.of_leaves (h : s.Sound) (hleaves : s.Leaves ts s') : s'.Sound where
  sorted := h.sorted.sublist hleaves.sublist
  slots e he := by
    rw [hleaves.ordered]
    exact h.slots e (hleaves.sublist.subset he)
  below e he := by
    rw [hleaves.next]
    exact h.below e (hleaves.sublist.subset he)

/-- The slot of a task is that of no other. -/
theorem Sound.eq_of_slot_eq (h : s.Sound) (he : e ∈ s.entries) (hf : f ∈ s.entries)
    (heq : e.1 = f.1) : e = f := by
  have hdistinct : (s.entries.map Prod.fst).Nodup :=
    List.pairwise_map.mpr (h.sorted.imp Slot.Precedes.ne)
  exact List.inj_on_of_nodup_map hdistinct he hf heq

theorem Sound.nodup (h : s.Sound) : s.entries.Nodup :=
  h.sorted.imp fun hprecedes heq => hprecedes.ne (congrArg Prod.fst heq)

theorem Sound.lookup_slot (h : s.Sound) (he : e ∈ s.entries) :
    s.entries.lookup e.1 = some e.2 := by
  cases hfound : s.entries.lookup e.1 with
  | none => exact absurd (List.lookup_eq_none_iff.mp hfound e he) (by simp)
  | some t =>
    obtain ⟨before, behind, hsplit, -⟩ := List.lookup_eq_some_iff.mp hfound
    have ht : (e.1, t) ∈ s.entries := by simp [hsplit]
    rw [← h.eq_of_slot_eq ht he rfl]

/-- By its slot, a task is taken out. -/
theorem Sound.remove_of_mem (h : s.Sound) (he : e ∈ s.entries) :
    s.remove e.1 = (some e.2, { s with entries := s.entries.erase e }) := by
  have hrest : s.entries.filter (fun f => f.1 ≠ e.1) = s.entries.erase e := by
    rw [h.nodup.erase_eq_filter]
    refine List.filter_congr fun f hf => ?_
    have hslot : f.1 = e.1 ↔ f = e := ⟨h.eq_of_slot_eq hf he, congrArg Prod.fst⟩
    rw [Bool.eq_iff_iff]
    simp [hslot]
  rw [remove, h.lookup_slot he, hrest]

theorem remove_of_ne (hne : ∀ e ∈ s.entries, e.1 ≠ slot) : s.remove slot = (none, s) := by
  have hlookup : s.entries.lookup slot = none :=
    List.lookup_eq_none_iff.mpr fun e he => bne_iff_ne.mpr (hne e he).symm
  have hrest : s.entries.filter (fun e => e.1 ≠ slot) = s.entries :=
    List.filter_eq_self.mpr fun e he => decide_eq_true (hne e he)
  rw [remove, hlookup, hrest]

theorem Sound.leaves_remove (h : s.Sound) (slot : Slot) :
    s.Leaves (s.remove slot).1.toList (s.remove slot).2 := by
  by_cases hslot : ∃ e ∈ s.entries, e.1 = slot
  · obtain ⟨e, he, rfl⟩ := hslot
    rw [h.remove_of_mem he]
    refine ⟨rfl, rfl, List.erase_sublist, [e], rfl, ?_⟩
    exact (List.perm_append_singleton _ _).trans (List.perm_cons_erase he).symm
  · rw [remove_of_ne fun e he heq => hslot ⟨e, he, heq⟩]
    exact .refl s

theorem leaves_popFirst (s : Slots) : s.Leaves s.popFirst.1.toList s.popFirst.2 where
  ordered := rfl
  next := rfl
  sublist := List.tail_sublist _
  perm := by
    cases hentries : s.entries with
    | nil => exact ⟨[], by simp [popFirst, hentries]⟩
    | cons e es => exact ⟨[e], by simp [popFirst, hentries, List.perm_append_singleton]⟩

theorem Sound.leaves_removeAll (h : s.Sound) (slots : List Slot) :
    s.Leaves (s.removeAll slots).1 (s.removeAll slots).2 := by
  induction slots generalizing s with
  | nil => exact .refl s
  | cons slot slots ih =>
    have hfirst := h.leaves_remove slot
    exact hfirst.trans (ih (h.of_leaves hfirst))

/-- By their slots, some tasks of the map are taken out, and no others. -/
theorem Sound.removeAll_eq (h : s.Sound) {group : List (Slot × Task)}
    (hgroup : group.Sublist s.entries) :
    s.removeAll (group.map Prod.fst) =
      (group.map Prod.snd, { s with entries := s.entries.filter fun e => e ∉ group }) := by
  induction group generalizing s with
  | nil => simp [removeAll]
  | cons e group ih =>
    have he : e ∈ s.entries := hgroup.subset List.mem_cons_self
    have hleaves := h.leaves_remove e.1
    rw [h.remove_of_mem he] at hleaves
    have hgroup' : group.Sublist (s.entries.erase e) := by
      simpa only [List.erase_cons_head] using hgroup.erase e
    have hothers : (s.entries.erase e).filter (fun f => f ∉ group) =
        s.entries.filter fun f => f ∉ e :: group := by
      rw [h.nodup.erase_eq_filter, List.filter_filter]
      refine List.filter_congr fun f _ => ?_
      rw [Bool.eq_iff_iff]
      simp [and_comm]
    rw [List.map_cons, removeAll, h.remove_of_mem he]
    simp only [ih (h.of_leaves hleaves) hgroup', hothers]
    rfl

/-! ### Lookups by priority -/

section Front

variable {α : Type} {p : α → Bool} {xs : List α}

/-- What passes a test is in front where each that passes has only such in front of it. -/
theorem takeWhile_eq_filter (h : xs.Pairwise fun x y => p y = true → p x = true) :
    xs.takeWhile p = xs.filter p := by
  induction xs with
  | nil => rfl
  | cons x xs ih =>
    obtain ⟨hhead, htail⟩ := List.pairwise_cons.mp h
    by_cases hx : p x = true
    · rw [List.takeWhile_cons_of_pos hx, List.filter_cons_of_pos hx, ih htail]
    · have hnone : xs.filter p = [] :=
        List.filter_eq_nil_iff.mpr fun y hy hp => hx (hhead y hy hp)
      rw [List.takeWhile_cons_of_neg hx, List.filter_cons_of_neg hx, hnone]

theorem dropWhile_eq_filter (h : xs.Pairwise fun x y => p y = true → p x = true) :
    xs.dropWhile p = xs.filter fun x => !p x := by
  induction xs with
  | nil => rfl
  | cons x xs ih =>
    obtain ⟨hhead, htail⟩ := List.pairwise_cons.mp h
    by_cases hx : p x = true
    · rw [List.dropWhile_cons_of_pos hx, List.filter_cons_of_neg (by simp [hx]), ih htail]
    · have hall : (x :: xs).filter (fun x => !p x) = x :: xs := by
        refine List.filter_eq_self.mpr fun y hy => ?_
        rcases List.mem_cons.mp hy with rfl | hy
        · simpa using hx
        · simpa using fun hp => hx (hhead y hy hp)
      rw [List.dropWhile_cons_of_neg hx, hall]

end Front

theorem Sound.priority_eq (h : s.Sound) (hordered : s.ordered = true) (he : e ∈ s.entries) :
    e.1.priority = e.2.priority := by
  rw [h.slots e he, hordered]
  rfl

/-- From the least possible slot of a priority on, all tasks of the priority are found. -/
theorem Sound.range_eq_filter (h : s.Sound) (hordered : s.ordered = true) (priority : Int) :
    s.range priority = s.ofPriority priority := by
  have hdescending : s.entries.Pairwise fun e f => f.1.priority ≤ e.1.priority :=
    h.sorted.imp fun hprecedes => by
      unfold Slot.Precedes at hprecedes
      omega
  have hlarger : s.entries.Pairwise fun e f =>
      decide (f.1.Precedes { priority, key := 0, number := 0 }) = true →
        decide (e.1.Precedes { priority, key := 0, number := 0 }) = true :=
    hdescending.imp fun hle hf => by
      simp only [decide_eq_true_eq, Slot.precedes_least_iff] at hf ⊢
      omega
  rw [range, dropWhile_eq_filter hlarger]
  -- what is left has no larger priority, so that the tasks of this one are in front
  rw [takeWhile_eq_filter, List.filter_filter, ofPriority]
  · refine List.filter_congr fun e he => ?_
    rw [← h.priority_eq hordered he, Bool.eq_iff_iff]
    simp only [Bool.and_eq_true, beq_iff_eq, Bool.not_eq_true', decide_eq_false_iff_not,
      Slot.precedes_least_iff]
    omega
  · refine (hdescending.filter _).imp_of_mem fun he hf hle hpriority => ?_
    have hnot := (List.mem_filter.mp he).2
    simp only [Bool.not_eq_true', decide_eq_false_iff_not, Slot.precedes_least_iff] at hnot
    simp only [beq_iff_eq] at hpriority ⊢
    omega

theorem ofPriority_toPending (s : Slots) (priority : Int) :
    s.toPending.ofPriority priority = (s.ofPriority priority).map Prod.snd := by
  simp [Pending.ofPriority, toPending, ofPriority, List.filter_map, Function.comp_def]

theorem Sound.hasPriority_iff (h : s.Sound) (hordered : s.ordered = true) (priority : Int) :
    s.hasPriority priority = true ↔ ∃ t ∈ s.toPending.tasks, t.priority = priority := by
  have hnil : s.range priority = [] ↔ s.toPending.ofPriority priority = [] := by
    rw [h.range_eq_filter hordered, ofPriority_toPending, List.map_eq_nil_iff]
  simp [hasPriority, hnil, Pending.ofPriority]

/-- The tasks of the next group of a priority, with their slots. -/
def leading (priority : Int) (s : Slots) : List (Slot × Task) :=
  (s.ofPriority priority).take (s.toPending.groupSize priority)

theorem Sound.groupOf_eq (h : s.Sound) (hordered : s.ordered = true) (priority : Int) :
    s.groupOf priority = s.leading priority := by
  rw [groupOf, h.range_eq_filter hordered, leading, Pending.groupSize, ofPriority_toPending]
  cases s.ofPriority priority <;> rfl

theorem leading_sublist (s : Slots) (priority : Int) : (s.leading priority).Sublist s.entries :=
  (List.take_sublist _ _).trans List.filter_sublist

/-- A group is taken out, and nothing else. -/
theorem Sound.takeGroup_eq (h : s.Sound) (hordered : s.ordered = true) (priority : Int) :
    s.takeGroup priority = ((s.leading priority).map Prod.snd,
      { s with entries := s.entries.filter fun e => e ∉ s.leading priority }) := by
  rw [takeGroup, h.groupOf_eq hordered, h.removeAll_eq (s.leading_sublist priority)]

/-- Without the first tasks of a priority, a list is as behind a group. -/
theorem map_filter_notMem_take (hes : es.Nodup) (priority : Int) (n : Nat) :
    (es.filter fun e => e ∉ (es.filter fun e => e.2.priority == priority).take n).map Prod.snd =
      Pending.dropOfPriority priority n (es.map Prod.snd) := by
  induction es generalizing n with
  | nil => simp [Pending.dropOfPriority]
  | cons e es ih =>
    obtain ⟨hnew, hes⟩ := List.nodup_cons.mp hes
    cases n with
    | zero => simp [Pending.dropOfPriority]
    | succ n =>
      by_cases hpriority : e.2.priority = priority
      · have hfirst : ((e :: es).filter fun e => e.2.priority == priority) =
            e :: es.filter fun e => e.2.priority == priority :=
          List.filter_cons_of_pos (by simpa using hpriority)
        rw [hfirst, List.take_succ_cons, List.filter_cons_of_neg (by simp), List.map_cons,
          Pending.dropOfPriority, if_pos (by simpa using hpriority), ← ih hes n]
        -- what follows is not `e`, so that `e` in the group makes no difference to it
        refine congrArg _ (List.filter_congr fun f hf => ?_)
        have hne : f ≠ e := fun heq => hnew (heq ▸ hf)
        simp [hne]
      · have hfirst : ((e :: es).filter fun e => e.2.priority == priority) =
            es.filter fun e => e.2.priority == priority :=
          List.filter_cons_of_neg (by simpa using hpriority)
        have hkept : e ∉ (es.filter fun e => e.2.priority == priority).take (n + 1) := fun he =>
          hnew (List.mem_of_mem_filter (List.mem_of_mem_take he))
        rw [hfirst, List.filter_cons_of_pos (by exact decide_eq_true hkept), List.map_cons,
          List.map_cons, Pending.dropOfPriority, if_neg (by simpa using hpriority),
          ih hes (n + 1)]

/-- A group leaves as it leaves a pending store. -/
theorem Sound.toPending_takeGroup (h : s.Sound) (hordered : s.ordered = true) (priority : Int) :
    s.toPending.takeGroup priority =
      ((s.takeGroup priority).1, (s.takeGroup priority).2.toPending) := by
  have hgroup : (s.leading priority).map Prod.snd =
      (s.toPending.ofPriority priority).take (s.toPending.groupSize priority) := by
    rw [leading, ofPriority_toPending, List.map_take]
  rw [h.takeGroup_eq hordered, Pending.takeGroup, hgroup]
  exact congrArg _ (congrArg _ (map_filter_notMem_take h.nodup priority _).symm)

/-! ### Scans -/

/-- The first task that passes a test leaves as it leaves a pending store. -/
theorem Sound.toPending_takeFirst? (h : s.Sound) (p : Task → Bool) :
    s.toPending.takeFirst? p = (s.takeFirst? p).map fun r => (r.1, r.2.toPending) := by
  have hfind : s.toPending.tasks.find? p = (s.entries.find? fun e => p e.2).map Prod.snd :=
    List.find?_map
  rw [Pending.takeFirst?, hfind, takeFirst?]
  cases hfound : s.entries.find? fun e => p e.2 with
  | none => rfl
  | some e =>
    obtain ⟨before, behind, hsplit, herase, hp, hbefore⟩ := Pending.exists_split_of_find? hfound
    have hnew : e ∉ before := fun he => by simp [hbefore e he] at hp
    have hrest : (s.entries.map Prod.snd).eraseP p = (s.entries.erase e).map Prod.snd := by
      rw [List.eraseP_map, hsplit, List.erase_append_right _ hnew, List.erase_cons_head, ← herase,
        hsplit]
      rfl
    simp only [Option.map_some, Option.bind_some,
      h.remove_of_mem (List.mem_of_find?_eq_some hfound)]
    simp [toPending, hrest]

/-- The first task of all leaves as it leaves a pending store. -/
theorem toPending_popFirst (s : Slots) :
    (s.toPending.takeFirst? fun _ => true) =
      s.popFirst.1.map fun t => (t, s.popFirst.2.toPending) := by
  cases hentries : s.entries <;> simp [Pending.takeFirst?, popFirst, toPending, hentries]

/-- The operations on a map do to its tasks what those on a pending store do. -/
structure ActsAs (s : Slots) (p : Pending) : Prop where
  insert : ∀ t, (s.insert t).toPending = p.insert t
  takeFirst? : ∀ q, p.takeFirst? q = (s.takeFirst? q).map fun r => (r.1, r.2.toPending)
  popFirst : (p.takeFirst? fun _ => true) = s.popFirst.1.map fun t => (t, s.popFirst.2.toPending)
  hasPriority : s.ordered = true → ∀ priority, s.hasPriority priority = p.hasPriority priority
  takeGroup : s.ordered = true → ∀ priority,
    p.takeGroup priority = ((s.takeGroup priority).1, (s.takeGroup priority).2.toPending)

theorem Sound.actsAs (h : s.Sound) : s.ActsAs s.toPending where
  insert := h.toPending_insert
  takeFirst? := h.toPending_takeFirst?
  popFirst := s.toPending_popFirst
  hasPriority hordered priority := by
    rw [Bool.eq_iff_iff, h.hasPriority_iff hordered, Pending.hasPriority_iff]
  takeGroup := h.toPending_takeGroup

/-! ### Runs -/

/-- A call on a map of tasks. -/
inductive Operation
  | insert (t : Task)
  | remove (slot : Slot)
  | popFirst
  | takeGroup (priority : Int)
  deriving DecidableEq, Repr

/-- The task that a call inserts. -/
def Operation.inserted : Operation → List Task
  | insert t => [t]
  | _ => []

/-- All tasks that some calls insert. -/
def inserted (calls : List Operation) : List Task := calls.flatMap Operation.inserted

/-- A call: the tasks that it takes out, unless it is refused, and the map behind it. With `checks`,
insertions are refused once the numbers are used up, and groups where there is no order. -/
def act (checks : Bool) (s : Slots) : Operation → Option (List Task) × Slots
  | .insert t =>
    if checks && wordBound ≤ s.next + 1 then (none, s) else (some [], s.insert t)
  | .remove slot => (some (s.remove slot).1.toList, (s.remove slot).2)
  | .popFirst => (some s.popFirst.1.toList, s.popFirst.2)
  | .takeGroup priority =>
    if checks && !s.ordered then (none, s)
    else (some (s.takeGroup priority).1, (s.takeGroup priority).2)

/-- The map behind some calls. -/
def after (checks : Bool) (s : Slots) (calls : List Operation) : Slots :=
  calls.foldl (fun s c => (s.act checks c).2) s

/-- All tasks that some calls take out. -/
def takenBy (checks : Bool) (s : Slots) : List Operation → List Task
  | [] => []
  | c :: calls => (s.act checks c).1.getD [] ++ takenBy checks (s.act checks c).2 calls

/-- From the first map to the second one, tasks have come in and others have gone out. What is in
the second map keeps its number, and what has come in has the numbers that follow. -/
structure Balanced (s : Slots) (ins outs : List Task) (s' : Slots) : Prop where
  ordered : s'.ordered = s.ordered
  next : s'.next = s.next + ins.length
  perm : ∃ taken, taken.map Prod.fst = outs ∧
    (s'.numbered ++ taken).Perm (s.numbered ++ ins.zipIdx s.next)

theorem Balanced.trans {ins outs ins' outs' : List Task} (h : s.Balanced ins outs s')
    (h' : s'.Balanced ins' outs' s'') : s.Balanced (ins ++ ins') (outs ++ outs') s'' where
  ordered := h'.ordered.trans h.ordered
  next := by
    rw [h'.next, h.next, List.length_append]
    omega
  perm := by
    obtain ⟨taken, htaken, hperm⟩ := h.perm
    obtain ⟨taken', htaken', hperm'⟩ := h'.perm
    refine ⟨taken ++ taken', by rw [List.map_append, htaken, htaken'], ?_⟩
    calc s''.numbered ++ (taken ++ taken')
        ~ s''.numbered ++ taken' ++ taken := by
          rw [List.append_assoc]
          exact List.perm_append_comm.append_left _
      _ ~ s'.numbered ++ ins'.zipIdx s'.next ++ taken := hperm'.append_right taken
      _ ~ s'.numbered ++ taken ++ ins'.zipIdx s'.next := by
          rw [List.append_assoc, List.append_assoc]
          exact List.perm_append_comm.append_left _
      _ ~ s.numbered ++ ins.zipIdx s.next ++ ins'.zipIdx s'.next := hperm.append_right _
      _ = s.numbered ++ (ins ++ ins').zipIdx s.next := by
          rw [List.append_assoc, List.zipIdx_append, h.next]

theorem Leaves.balanced (h : s.Leaves ts s') : s.Balanced [] ts s' where
  ordered := h.ordered
  next := h.next
  perm := by
    obtain ⟨taken, htaken, hperm⟩ := h.perm
    refine ⟨taken.map fun e => (e.2, e.1.number), by simpa [Function.comp_def] using htaken, ?_⟩
    simpa [numbered] using hperm.map fun e => (e.2, e.1.number)

theorem Sound.balanced_insert (h : s.Sound) (hroom : s.next + 1 < wordBound) (t : Task) :
    s.Balanced [t] [] (s.insert t) where
  ordered := rfl
  next := next_insert hroom t
  perm := by
    refine ⟨[], rfl, ?_⟩
    rw [List.append_nil]
    calc (s.insert t).numbered
        ~ ((slotOf s.ordered t s.next, t) :: s.entries).map
            fun e : Slot × Task => (e.2, e.1.number) := (h.perm_insert t).map _
      _ = (t, s.next) :: s.numbered := by simp [numbered]
      _ ~ s.numbered ++ [t].zipIdx s.next := (List.perm_append_singleton _ _).symm

/-- No insertion is refused as long as there are numbers. -/
theorem act_insert (checks : Bool) (hroom : s.next + 1 < wordBound) (t : Task) :
    s.act checks (.insert t) = (some [], s.insert t) := by
  have haccepted : ¬ (checks && decide (wordBound ≤ s.next + 1)) = true := by
    simp only [Bool.and_eq_true, decide_eq_true_eq]
    omega
  rw [act, if_neg haccepted]

/-- A call keeps a map sound, as long as there are numbers. -/
theorem Sound.act (h : s.Sound) (checks : Bool) (c : Operation)
    (hroom : s.next + c.inserted.length < wordBound) :
    (s.act checks c).2.Sound ∧
      s.Balanced c.inserted ((s.act checks c).1.getD []) (s.act checks c).2 := by
  have htaken : ∀ {ts : List Task} {s' : Slots}, s.Leaves ts s' →
      s'.Sound ∧ s.Balanced [] ts s' := fun hleaves => ⟨h.of_leaves hleaves, hleaves.balanced⟩
  cases c with
  | insert t =>
    have hroom : s.next + 1 < wordBound := hroom
    rw [act_insert checks hroom]
    exact ⟨h.insert hroom t, h.balanced_insert hroom t⟩
  | remove slot => exact htaken (h.leaves_remove slot)
  | popFirst => exact htaken s.leaves_popFirst
  | takeGroup priority =>
    rw [Slots.act]
    split
    · exact htaken (.refl s)
    · exact htaken (h.leaves_removeAll _)

/-- A run keeps a map sound, as long as there are numbers. -/
theorem sound_after (h : s.Sound) (checks : Bool) (calls : List Operation)
    (hroom : s.next + (inserted calls).length < wordBound) :
    (s.after checks calls).Sound ∧
      s.Balanced (inserted calls) (s.takenBy checks calls) (s.after checks calls) := by
  induction calls generalizing s with
  | nil => exact ⟨h, (Leaves.refl s).balanced⟩
  | cons c calls ih =>
    have hsplit : inserted (c :: calls) = c.inserted ++ inserted calls := List.flatMap_cons
    rw [hsplit, List.length_append] at hroom
    obtain ⟨hsound, hstep⟩ := h.act checks c (by omega)
    have hnext := hstep.next
    obtain ⟨hend, hrest⟩ := ih hsound (by omega)
    rw [hsplit]
    exact ⟨hend, hstep.trans hrest⟩

/-! ### Stable sorted sequences -/

/-- What is told about a priority and taken out for it: its first tasks, as many of them as the
first one tells and as there are, and nothing where there is none. -/
structure FindsPriority (s : Slots) (priority : Int) : Prop where
  hasPriority : s.hasPriority priority = true ↔ ∃ t ∈ s.toPending.tasks, t.priority = priority
  takeGroup_nil : s.ofPriority priority = [] → s.takeGroup priority = ([], s)
  takeGroup_cons : ∀ e es, s.ofPriority priority = e :: es →
    let group := (e :: es).take (min (max 1 e.2.partitions) (e :: es).length)
    s.takeGroup priority =
      (group.map Prod.snd, { s with entries := s.entries.filter fun e => e ∉ group })

theorem Sound.findsPriority (h : s.Sound) (hordered : s.ordered = true) (priority : Int) :
    s.FindsPriority priority where
  hasPriority := h.hasPriority_iff hordered priority
  takeGroup_nil hnone := by
    rw [h.takeGroup_eq hordered, leading, hnone]
    simp
  takeGroup_cons e es hsome := by
    have hleading : s.leading priority =
        (e :: es).take (min (max 1 e.2.partitions) (e :: es).length) := by
      rw [leading, Pending.groupSize, ofPriority_toPending, hsome]
      exact List.take_eq_take_min
    rw [h.takeGroup_eq hordered, hleading]

/-- **Stable sorted sequences.** Along every run with fewer insertions than there are numbers, with
checks or without, a map of tasks by slots lists the tasks that are left, each with the number of
its insertion, in the order of a pending store: by descending priority, ascending key and number if
it is ordered, by the number alone if it is not. Each insertion adds a task to those that are there,
the slot of a task removes this one, each operation acts on the tasks as that of a pending store
does, and an ordered map finds the tasks of any priority and takes out the first of them. -/
theorem slots_stable_sorted (ordered checks : Bool) (calls : List Operation)
    (hcount : (inserted calls).length < wordBound) :
    let start : Slots := { ordered }
    let s := start.after checks calls
    s.ordered = ordered ∧ s.toPending.IsNumbering s.numbered ∧
      (∃ taken, taken.map Prod.fst = start.takenBy checks calls ∧
        (s.numbered ++ taken).Perm (inserted calls).zipIdx) ∧
      (∀ before t behind, calls = before ++ .insert t :: behind →
        let s' := start.after checks before
        s'.act checks (.insert t) = (some [], s'.insert t) ∧
          (s'.insert t).entries.Perm
            ((slotOf ordered t (inserted before).length, t) :: s'.entries)) ∧
      (∀ e ∈ s.entries, s.remove e.1 = (some e.2, { s with entries := s.entries.erase e })) ∧
      s.ActsAs s.toPending ∧ (ordered = true → ∀ priority, s.FindsPriority priority) := by
  intro start s
  have hstart : start.Sound := sound_empty ordered
  have hroom : ∀ calls', (inserted calls').length < wordBound →
      start.next + (inserted calls').length < wordBound := fun _ h => by simpa [start] using h
  obtain ⟨hsound, hbalanced⟩ := sound_after hstart checks calls (hroom calls hcount)
  have hordered : s.ordered = ordered := hbalanced.ordered
  refine ⟨hordered, hsound.isNumbering, by simpa [start, numbered] using hbalanced.perm, ?_,
    fun e he => hsound.remove_of_mem he, hsound.actsAs,
    fun h => hsound.findsPriority (hordered.trans h)⟩
  rintro before t behind rfl
  have hlength : (inserted (before ++ .insert t :: behind)).length =
      (inserted before).length + 1 + (inserted behind).length := by
    simp [inserted, Operation.inserted]
    omega
  obtain ⟨hbefore, hcounted⟩ := sound_after hstart checks before (hroom before (by omega))
  have hnext : (start.after checks before).next = (inserted before).length := by
    simpa [start] using hcounted.next
  have hfits : (start.after checks before).next + 1 < wordBound := by omega
  have hperm := hbefore.perm_insert t
  rw [hnext, hcounted.ordered] at hperm
  exact ⟨act_insert checks hfits t, hperm⟩

/-- Between the least priority and the largest one, a task that is inserted twice waits twice, in
the order of its insertions. -/
theorem slots_stable_sorted_insertedTwice :
    let low : Task :=
      { name := "low", key := 0, priority := -9223372036854775808, len := 8, payload := .control }
    let fc : Task :=
      { name := "fc", key := 1, priority := 0, len := 8, partitions := 2, payload := .gradient }
    let high : Task :=
      { name := "high", key := 0, priority := 9223372036854775807, len := 8, payload := .control }
    let calls := [.insert low, .insert fc, .insert high, .insert fc, .popFirst]
    let s := ({ ordered := true } : Slots).after true calls
    (inserted calls).length < wordBound ∧ s.toPending.IsNumbering [(fc, 1), (fc, 3), (low, 0)] ∧
      (s.takeGroup 0).1 = [fc, fc] ∧ (s.takeGroup 0).2.toPending.tasks = [low] ∧
      s.hasPriority (-9223372036854775808) = true ∧
      ¬ s.hasPriority 9223372036854775807 = true := by
  intro low fc high calls s
  have hcount : (inserted calls).length < wordBound := by decide
  obtain ⟨-, hnumbering, -, -, -, -, hfinds⟩ := slots_stable_sorted true true calls hcount
  have hgroup := (hfinds rfl 0).takeGroup_cons _ _ rfl
  refine ⟨hcount, hnumbering, ?_, ?_, ?_, ?_⟩
  · exact congrArg Prod.fst hgroup
  · exact congrArg (fun r => r.2.toPending.tasks) hgroup
  · exact (hfinds rfl _).hasPriority.mpr ⟨low, by decide, rfl⟩
  · rw [(hfinds rfl _).hasPriority]
    decide

end Slots

end TensorDispatch
