import Mathlib.Data.List.Perm.Basic
import TensorDispatch.Pending

/-!
# Pending stores as ordered sequences

Every operation of a pending store moves tasks and keeps the order of those it leaves behind.

* `Pending.perm_insert`, `Pending.perm_takeFirst?`, `Pending.perm_takeGroup` — no task is made or
  lost;
* `Pending.insert_comm` — an ordered store does not tell in which order tasks of distinct ranks have
  come;
* `Pending.IsNumbering` — the tasks with the numbers of their submissions, in the order of the
  store. Tasks of one priority and one key stand in the order in which they came
  (`Pending.IsNumbering.insert`), and what leaves as a group leaves in this order
  (`Pending.IsNumbering.takeGroup`).
-/

namespace TensorDispatch

/-- What an ordered store goes by: the priority of a task and its key. -/
def Task.rank (t : Task) : Int × Nat := (t.priority, t.key)

/-- Of two tasks of distinct ranks, one goes before the other. -/
theorem Task.before_or_before {t u : Task} (h : t.rank ≠ u.rank) : t.Before u ∨ u.Before t := by
  simp only [rank, ne_eq, Prod.mk.injEq, not_and] at h
  unfold Before
  omega

namespace Pending

/-! ### No task is made or lost -/

/-- A task is placed behind those that it does not go before. -/
theorem place_eq (t : Task) (ts : List Task) :
    place t ts = ts.takeWhile (fun u => !decide (t.Before u)) ++
      t :: ts.dropWhile (fun u => !decide (t.Before u)) := by
  induction ts with
  | nil => rfl
  | cons u us ih => by_cases h : t.Before u <;> simp [place, h, ih]

/-- A task that goes before none comes last. -/
theorem place_of_not_before {t : Task} {ts : List Task} (h : ∀ u ∈ ts, ¬ t.Before u) :
    place t ts = ts ++ [t] := by
  induction ts with
  | nil => rfl
  | cons u us ih =>
    have hlater := ih fun v hv => h v (List.mem_cons_of_mem u hv)
    rw [place, if_neg (h u List.mem_cons_self), hlater, List.cons_append]

theorem perm_place (t : Task) (ts : List Task) : (place t ts).Perm (t :: ts) := by
  rw [place_eq]
  refine List.perm_middle.trans (List.Perm.cons t ?_)
  rw [List.takeWhile_append_dropWhile]

theorem perm_insert (t : Task) (s : Pending) : (s.insert t).tasks.Perm (t :: s.tasks) := by
  by_cases h : s.ordered
  · simpa [insert, h] using perm_place t s.tasks
  · simp [insert, h]

theorem takeFirst?_eq_some {p : Task → Bool} {s s' : Pending} {t : Task}
    (h : s.takeFirst? p = some (t, s')) :
    s.tasks.find? p = some t ∧ s' = { s with tasks := s.tasks.eraseP p } := by
  obtain ⟨u, hu, heq⟩ := Option.map_eq_some_iff.mp h
  cases heq
  exact ⟨hu, rfl⟩

theorem ordered_takeFirst? {p : Task → Bool} {s s' : Pending} {t : Task}
    (h : s.takeFirst? p = some (t, s')) : s'.ordered = s.ordered := by
  rw [(takeFirst?_eq_some h).2]

/-- The first item that passes a test stands behind items that fail it. -/
theorem exists_split_of_find? {α : Type} {p : α → Bool} {xs : List α} {x : α}
    (h : xs.find? p = some x) :
    ∃ before behind, xs = before ++ x :: behind ∧ xs.eraseP p = before ++ behind ∧ p x = true ∧
      ∀ y ∈ before, p y = false := by
  obtain ⟨hp, before, behind, rfl, hbefore⟩ := List.find?_eq_some_iff_append.mp h
  refine ⟨before, behind, rfl, ?_, hp, by simpa using hbefore⟩
  rw [List.eraseP_append_right _ (by simpa using hbefore), List.eraseP_cons_of_pos hp]

/-- A list is its first item that passes a test, and the list without it. -/
theorem perm_eraseP_of_find? {α : Type} {p : α → Bool} {xs : List α} {x : α}
    (h : xs.find? p = some x) : xs.Perm (x :: xs.eraseP p) := by
  obtain ⟨before, behind, hsplit, herase, -⟩ := exists_split_of_find? h
  rw [herase, hsplit]
  exact List.perm_middle

theorem perm_takeFirst? {p : Task → Bool} {s s' : Pending} {t : Task}
    (h : s.takeFirst? p = some (t, s')) : s.tasks.Perm (t :: s'.tasks) := by
  obtain ⟨hfound, rfl⟩ := takeFirst?_eq_some h
  exact perm_eraseP_of_find? hfound

/-- Taking the first tasks of a priority splits any list of them in two, whatever is kept beside
each task. -/
theorem exists_split_ofPriority {α : Type} (task : α → Task) (priority : Int) (n : Nat)
    (es : List α) :
    ∃ group rest, group.Sublist es ∧ rest.Sublist es ∧ es.Perm (group ++ rest) ∧
      group.map task =
        ((es.map task).filter fun t => t.priority == priority).take n ∧
      rest.map task = dropOfPriority priority n (es.map task) := by
  induction es generalizing n with
  | nil => exact ⟨[], [], .slnil, .slnil, .nil, by simp, by simp [dropOfPriority]⟩
  | cons e es ih =>
    cases n with
    | zero => exact ⟨[], e :: es, List.nil_sublist _, .refl _, .refl _, by simp, by
        simp [dropOfPriority]⟩
    | succ n =>
      -- the count goes down only at a task of the priority
      by_cases h : (task e).priority = priority
      · obtain ⟨group, rest, hg, hr, hperm, hgt, hrt⟩ := ih n
        refine ⟨e :: group, rest, hg.cons_cons e, hr.cons e, hperm.cons e, ?_, ?_⟩
        · simp [h, hgt]
        · simp [h, hrt, dropOfPriority]
      · obtain ⟨group, rest, hg, hr, hperm, hgt, hrt⟩ := ih (n + 1)
        refine ⟨group, e :: rest, hg.cons e, hr.cons_cons e, ?_, ?_, ?_⟩
        · exact (hperm.cons e).trans List.perm_middle.symm
        · simp [h, hgt]
        · simp [h, hrt, dropOfPriority]

theorem perm_takeGroup (priority : Int) (s : Pending) :
    s.tasks.Perm ((s.takeGroup priority).1 ++ (s.takeGroup priority).2.tasks) := by
  obtain ⟨group, rest, -, -, hperm, hg, hr⟩ :=
    exists_split_ofPriority id priority (s.groupSize priority) s.tasks
  simp only [List.map_id] at hg hr
  subst hg hr
  exact hperm

/-! ### Groups -/

theorem mem_ofPriority_iff {priority : Int} {s : Pending} {t : Task} :
    t ∈ s.ofPriority priority ↔ t ∈ s.tasks ∧ t.priority = priority := by
  simp [ofPriority]

theorem exists_ofPriority_eq_cons {priority : Int} {s : Pending}
    (h : s.hasPriority priority = true) : ∃ t ts, s.ofPriority priority = t :: ts := by
  obtain ⟨u, hu, hpriority⟩ := hasPriority_iff.mp h
  exact List.exists_cons_of_ne_nil (List.ne_nil_of_mem (mem_ofPriority_iff.mpr ⟨hu, hpriority⟩))

theorem mem_takeGroup {priority : Int} {s : Pending} {t : Task}
    (h : t ∈ (s.takeGroup priority).1) : t ∈ s.tasks ∧ t.priority = priority :=
  mem_ofPriority_iff.mp (List.mem_of_mem_take h)

/-- The group of a priority that is waiting has a task, and its first task bounds its length. -/
theorem takeGroup_eq_cons {priority : Int} {s : Pending} (h : s.hasPriority priority = true) :
    ∃ t ts, (s.takeGroup priority).1 = t :: ts ∧ (t :: ts).length ≤ max 1 t.partitions := by
  obtain ⟨t, ts, hof⟩ := exists_ofPriority_eq_cons h
  obtain ⟨n, hn⟩ : ∃ n, max 1 t.partitions = n + 1 := ⟨max 1 t.partitions - 1, by omega⟩
  have hgroup : (s.takeGroup priority).1 = t :: ts.take n := by
    simp [takeGroup, groupSize, hof, hn]
  refine ⟨t, ts.take n, hgroup, ?_⟩
  rw [List.length_cons, List.length_take, hn]
  omega

/-- Where all tasks of a waiting priority tell the same number of partitions, its next group is of
this number. -/
theorem groupSize_eq {priority : Int} {s : Pending} {n : Nat} (h : s.hasPriority priority = true)
    (hpartitions : ∀ t ∈ s.tasks, t.priority = priority → t.partitions = n) (hpos : 1 ≤ n) :
    s.groupSize priority = n := by
  obtain ⟨t, ts, hcons⟩ := exists_ofPriority_eq_cons h
  have ht : t ∈ s.tasks ∧ t.priority = priority := mem_ofPriority_iff.mp (by simp [hcons])
  simp only [groupSize, hcons, hpartitions t ht.1 ht.2]
  exact Nat.max_eq_right hpos

/-- Behind a group, those of its priority that did not fit into it stay. -/
theorem ofPriority_takeGroup (priority : Int) (s : Pending) :
    (s.takeGroup priority).2.ofPriority priority =
      (s.ofPriority priority).drop (s.groupSize priority) := by
  simp only [takeGroup, ofPriority]
  generalize s.groupSize priority = n
  induction s.tasks generalizing n with
  | nil => simp [dropOfPriority]
  | cons t ts ih =>
    cases n with
    | zero => simp [dropOfPriority]
    | succ n =>
      by_cases h : t.priority = priority
      · simpa [dropOfPriority, h] using ih n
      · simpa [dropOfPriority, h] using ih (n + 1)

/-- Where all tasks of a waiting priority tell the same number of partitions, its next group is as
many of them as are there, up to this number, and the others stay. -/
theorem takeGroup_eq {priority : Int} {s : Pending} {n : Nat} (h : s.hasPriority priority = true)
    (hpartitions : ∀ t ∈ s.tasks, t.priority = priority → t.partitions = n) (hpos : 1 ≤ n) :
    (s.takeGroup priority).1 = (s.ofPriority priority).take n ∧
      (s.takeGroup priority).2.ofPriority priority = (s.ofPriority priority).drop n := by
  have hsize := groupSize_eq h hpartitions hpos
  refine ⟨?_, ?_⟩
  · rw [← hsize]
    rfl
  · rw [ofPriority_takeGroup, hsize]

/-- What stays behind a group keeps its order. -/
theorem takeGroup_sublist (priority : Int) (s : Pending) :
    (s.takeGroup priority).2.tasks.Sublist s.tasks := by
  obtain ⟨group, rest, -, hsublist, -, -, hrest⟩ :=
    exists_split_ofPriority id priority (s.groupSize priority) s.tasks
  simp only [List.map_id] at hrest
  rw [hrest] at hsublist
  exact hsublist

/-! ### Sorted stores -/

/-- A task takes its place among tasks of other keys. -/
theorem pairwise_place {t : Task} {ts : List Task} (h : ts.Pairwise Task.Before)
    (hkeys : ∀ u ∈ ts, u.key ≠ t.key) : (place t ts).Pairwise Task.Before := by
  induction ts with
  | nil => simp [place]
  | cons u us ih =>
    obtain ⟨hhead, htail⟩ := List.pairwise_cons.mp h
    by_cases hb : t.Before u
    -- the new task goes in front of `u`, and so of all that `u` is in front of
    · rw [place, if_pos hb]
      refine List.pairwise_cons.mpr ⟨?_, h⟩
      intro v hv
      rcases List.mem_cons.mp hv with rfl | hv
      · exact hb
      · have huv := hhead v hv
        unfold Task.Before at hb huv ⊢
        omega
    · rw [place, if_neg hb]
      refine List.pairwise_cons.mpr ⟨?_, ih htail fun v hv => hkeys v (List.mem_cons_of_mem u hv)⟩
      intro v hv
      rcases mem_place_iff.mp hv with rfl | hv
      · have hkey := hkeys u List.mem_cons_self
        unfold Task.Before at hb ⊢
        omega
      · exact hhead v hv

/-- A task takes its place among tasks of any ranks. -/
theorem pairwise_not_before_place {t : Task} {ts : List Task}
    (h : ts.Pairwise fun t u => ¬ u.Before t) :
    (place t ts).Pairwise fun t u => ¬ u.Before t := by
  induction ts with
  | nil => simp [place]
  | cons u us ih =>
    obtain ⟨hhead, htail⟩ := List.pairwise_cons.mp h
    by_cases hb : t.Before u
    · rw [place, if_pos hb]
      refine List.pairwise_cons.mpr ⟨fun v hv => ?_, h⟩
      rcases List.mem_cons.mp hv with rfl | hv
      · unfold Task.Before at hb ⊢
        omega
      · have huv := hhead v hv
        unfold Task.Before at hb huv ⊢
        omega
    · rw [place, if_neg hb]
      refine List.pairwise_cons.mpr ⟨fun v hv => ?_, ih htail⟩
      rcases mem_place_iff.mp hv with rfl | hv
      · exact hb
      · exact hhead v hv

/-- Within one priority, a store goes by keys. -/
theorem ofPriority_eq_filter {s : Pending} {ts : List Task} (hperm : s.tasks.Perm ts)
    (hsorted : s.tasks.Pairwise Task.Before) (hascending : ts.Pairwise fun t u => t.key < u.key)
    (priority : Int) : s.ofPriority priority = ts.filter fun t => t.priority == priority := by
  have hkeys : (s.ofPriority priority).Pairwise fun t u => t.key < u.key := by
    refine (hsorted.filter _).imp_of_mem fun {t u} ht hu hbefore => ?_
    simp only [ofPriority, List.mem_filter, beq_iff_eq] at ht hu
    unfold Task.Before at hbefore
    omega
  refine List.Perm.eq_of_pairwise ?_ hkeys (hascending.filter _) (hperm.filter _)
  intro t u _ _ h h'
  omega

/-! ### The order of submissions -/

/-- A task that goes before another may be placed after it. -/
private theorem place_place_of_before {t u : Task} (h : t.Before u) (ts : List Task) :
    place t (place u ts) = place u (place t ts) := by
  have hut : ¬ u.Before t := by
    unfold Task.Before at h ⊢
    omega
  induction ts with
  | nil => simp [place, h, hut]
  | cons v vs ih =>
    by_cases huv : u.Before v
    · have htv : t.Before v := by
        unfold Task.Before at h huv ⊢
        omega
      simp [place, huv, htv, h, hut]
    · by_cases htv : t.Before v
      · simp [place, htv, huv, hut]
      · simp [place, htv, huv, ih]

/-- Two tasks of which one goes before the other may be placed in either order. -/
theorem place_comm {t u : Task} (h : t.Before u ∨ u.Before t) (ts : List Task) :
    place t (place u ts) = place u (place t ts) := by
  rcases h with htu | hut
  · exact place_place_of_before htu ts
  · exact (place_place_of_before hut ts).symm

/-- Tasks of distinct ranks may be inserted into an ordered store in either order. -/
theorem insert_comm {s : Pending} (hordered : s.ordered = true) {t u : Task}
    (h : t.rank ≠ u.rank) : (s.insert t).insert u = (s.insert u).insert t := by
  simp [insert, hordered, place_comm (Task.before_or_before h.symm)]

/-! ### Numbered stores -/

/-- The order of a store over tasks with the numbers of their submissions: an ordered store goes
by priority and key first, any other by the number alone. -/
def Precedes (ordered : Bool) (e f : Task × Nat) : Prop :=
  if ordered then e.1.Before f.1 ∨ ¬ f.1.Before e.1 ∧ e.2 < f.2 else e.2 < f.2

/-- The tasks of a store with the numbers of their submissions, in its order. -/
structure IsNumbering (s : Pending) (entries : List (Task × Nat)) : Prop where
  tasks : entries.map Prod.fst = s.tasks
  sorted : entries.Pairwise (Precedes s.ordered)

theorem precedes_ordered_iff {e f : Task × Nat} :
    Precedes true e f ↔
      f.1.priority < e.1.priority ∨ e.1.priority = f.1.priority ∧
        (e.1.key < f.1.key ∨ e.1.key = f.1.key ∧ e.2 < f.2) := by
  simp only [Precedes, if_true, Task.Before]
  omega

theorem Precedes.of_not_before {e f : Task × Nat} (h : ¬ f.1.Before e.1) (h' : e.2 < f.2) :
    Precedes true e f := by
  simp [Precedes, h, h']

theorem Precedes.of_before {e f : Task × Nat} (h : e.1.Before f.1) : Precedes true e f := by
  simp [Precedes, h]

theorem Precedes.of_before_of_precedes {e f g : Task × Nat} (h : e.1.Before f.1)
    (h' : Precedes true f g) : Precedes true e g := by
  rw [precedes_ordered_iff] at h' ⊢
  unfold Task.Before at h
  omega

/-- In an ordered store, no task goes before one that stands in front of it. -/
theorem IsNumbering.not_before {s : Pending} {entries : List (Task × Nat)}
    (h : s.IsNumbering entries) (hordered : s.ordered = true) :
    s.tasks.Pairwise fun t u => ¬ u.Before t := by
  have hsorted := h.sorted
  rw [hordered] at hsorted
  rw [← h.tasks, List.pairwise_map]
  refine hsorted.imp fun {e f} hprecedes hbefore => ?_
  rw [precedes_ordered_iff] at hprecedes
  unfold Task.Before at hbefore
  omega

/-- A task that comes last goes behind its equals. -/
private theorem sorted_place {t : Task} {n : Nat} {entries : List (Task × Nat)}
    (h : entries.Pairwise (Precedes true)) (hn : ∀ e ∈ entries, e.2 < n) :
    (entries.takeWhile (fun e => !decide (t.Before e.1)) ++
      (t, n) :: entries.dropWhile (fun e => !decide (t.Before e.1))).Pairwise (Precedes true) := by
  induction entries with
  | nil => simp
  | cons e es ih =>
    obtain ⟨hhead, htail⟩ := List.pairwise_cons.mp h
    by_cases hb : t.Before e.1
    -- the new task goes in front of `e`, and so of all that `e` is in front of
    · have hfront : ∀ f ∈ e :: es, Precedes true (t, n) f := by
        intro f hf
        rcases List.mem_cons.mp hf with rfl | hf
        · exact Precedes.of_before hb
        · exact Precedes.of_before_of_precedes hb (hhead f hf)
      simp only [List.takeWhile_cons, List.dropWhile_cons, hb, decide_true, Bool.not_true,
        Bool.false_eq_true, if_false, List.nil_append]
      exact List.pairwise_cons.mpr ⟨hfront, h⟩
    -- `e` stays in front, even of the new task: its number is smaller
    · have hlast : ∀ f ∈ es.takeWhile (fun e => !decide (t.Before e.1)) ++
          (t, n) :: es.dropWhile (fun e => !decide (t.Before e.1)), Precedes true e f := by
        intro f hf
        have hmem := (List.perm_middle (a := (t, n))).mem_iff.mp hf
        rw [List.takeWhile_append_dropWhile] at hmem
        rcases List.mem_cons.mp hmem with rfl | hmem
        · exact Precedes.of_not_before hb (hn e List.mem_cons_self)
        · exact hhead f hmem
      simp only [List.takeWhile_cons, List.dropWhile_cons, hb, decide_false, Bool.not_false,
        if_true, List.cons_append]
      exact List.pairwise_cons.mpr ⟨hlast, ih htail fun f hf => hn f (List.mem_cons_of_mem e hf)⟩

/-- A task with a later number than all others takes its place among them. -/
theorem IsNumbering.insert {s : Pending} {entries : List (Task × Nat)} (h : s.IsNumbering entries)
    (t : Task) {n : Nat} (hn : ∀ e ∈ entries, e.2 < n) :
    ∃ entries', (s.insert t).IsNumbering entries' ∧ entries'.Perm ((t, n) :: entries) := by
  cases ho : s.ordered with
  | true =>
    refine ⟨entries.takeWhile (fun e => !decide (t.Before e.1)) ++
      (t, n) :: entries.dropWhile (fun e => !decide (t.Before e.1)), ⟨?_, ?_⟩, ?_⟩
    · simp only [Pending.insert, ho, if_true, place_eq, ← h.tasks, List.takeWhile_map,
        List.dropWhile_map, List.map_append, List.map_cons, Function.comp_def]
    · have hsorted := h.sorted
      rw [ho] at hsorted
      simpa only [Pending.insert, ho] using sorted_place hsorted hn
    · refine List.perm_middle.trans (List.Perm.cons _ ?_)
      rw [List.takeWhile_append_dropWhile]
  | false =>
    refine ⟨entries ++ [(t, n)], ⟨?_, ?_⟩, List.perm_append_singleton _ _⟩
    · simp [Pending.insert, ho, h.tasks]
    · have hsorted := h.sorted
      simp only [Pending.insert, ho, Bool.false_eq_true, if_false] at hsorted ⊢
      refine List.pairwise_append.mpr ⟨hsorted, List.pairwise_singleton _ _, ?_⟩
      intro e he f hf
      rw [List.mem_singleton.mp hf]
      exact hn e he

/-- A group leaves in the order of the store, and so do the tasks behind it later. -/
theorem IsNumbering.takeGroup {s : Pending} {entries : List (Task × Nat)}
    (h : s.IsNumbering entries) (priority : Int) :
    ∃ group rest, group.map Prod.fst = (s.takeGroup priority).1 ∧
      (s.takeGroup priority).2.IsNumbering rest ∧ entries.Perm (group ++ rest) ∧
      group.Pairwise (Precedes s.ordered) := by
  obtain ⟨group, rest, hgs, hrs, hperm, hg, hr⟩ :=
    exists_split_ofPriority Prod.fst priority (s.groupSize priority) entries
  rw [h.tasks] at hg hr
  exact ⟨group, rest, hg, ⟨hr, h.sorted.sublist hrs⟩, hperm, h.sorted.sublist hgs⟩

end Pending

end TensorDispatch
