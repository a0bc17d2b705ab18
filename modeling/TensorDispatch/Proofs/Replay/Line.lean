import TensorDispatch.Proofs.Pending
import TensorDispatch.Proofs.Replay.Trace

/-!
# Replays of a whole line of tensors

When all tensors of an iteration wait at once, and when those of the schedule come first, a replay
stages them one after the other.

* `Tensor` — a tensor that is submitted whole. The group of its priority is the tensor, even if
  later tensors share the priority (`Tensor.takeGroup`);
* `Schedule.LinesUp` — a line of tensors that keeps to a schedule, with fillers behind it;
* `Replay.Follows` — the invariant of a pass over a line: which tensors have been staged, and which
  still wait. A refill stages the next tensor or waits for the door (`Replay.Follows.refill`), and a
  completion opens the door (`Replay.Follows.completed`);
* `Replay.Rests` — between two passes. When a line waits, the next pass over it starts
  (`Replay.Rests.follows`); when it has left, the replay rests again (`Replay.Follows.rests`).
-/

namespace TensorDispatch

/-! ### Tensors -/

/-- A tensor that is submitted whole: all its partitions, none of which waits for a flag. -/
structure Tensor where
  priority : Int
  parts : List Task
  nonempty : parts ≠ []
  ofPriority : ∀ t ∈ parts, t.priority = priority
  /-- Every partition tells how many there are. -/
  whole : ∀ t ∈ parts, t.partitions = parts.length
  unflagged : ∀ t ∈ parts, t.flag = none

/-- All partitions of a line of tensors. -/
def Tensor.partsOf (line : List Tensor) : List Task := line.flatMap Tensor.parts

namespace Tensor

@[simp] theorem partsOf_nil : partsOf [] = [] := rfl

@[simp] theorem partsOf_cons (x : Tensor) (line : List Tensor) :
    partsOf (x :: line) = x.parts ++ partsOf line := rfl

@[simp] theorem partsOf_append (line line' : List Tensor) :
    partsOf (line ++ line') = partsOf line ++ partsOf line' := List.flatMap_append

theorem partsOf_eq_nil_iff {line : List Tensor} : partsOf line = [] ↔ line = [] := by
  cases line with
  | nil => simp
  | cons x line => simp [x.nonempty]

/-- In a store of whole tensors, the next group of a priority is the first tensor of it. -/
theorem takeGroup {s : Pending} {x : Tensor} {later : List Task}
    (hperm : s.tasks.Perm (x.parts ++ later)) (hsorted : s.tasks.Pairwise Task.Before)
    (hascending : (x.parts ++ later).Pairwise fun t u => t.key < u.key) :
    (s.takeGroup x.priority).1 = x.parts ∧ (s.takeGroup x.priority).2.tasks.Perm later := by
  have hparts : x.parts.filter (fun t => t.priority == x.priority) = x.parts :=
    List.filter_eq_self.mpr fun t ht => by simp [x.ofPriority t ht]
  have hof : s.ofPriority x.priority =
      x.parts ++ later.filter fun t => t.priority == x.priority := by
    rw [Pending.ofPriority_eq_filter hperm hsorted hascending, List.filter_append, hparts]
  -- the first partition tells how many there are
  have hsize : s.groupSize x.priority = x.parts.length := by
    obtain ⟨t, ts, hcons⟩ := List.exists_cons_of_ne_nil x.nonempty
    have hcount : t.partitions = x.parts.length := x.whole t (by simp [hcons])
    have hpos : 0 < x.parts.length := List.length_pos_iff.mpr x.nonempty
    rw [hcons, List.cons_append] at hof
    simp only [Pending.groupSize, hof, hcount]
    omega
  have hgroup : (s.takeGroup x.priority).1 = x.parts := by
    simp only [Pending.takeGroup, hof, hsize, List.take_left]
  refine ⟨hgroup, ?_⟩
  have hsplit := (s.perm_takeGroup x.priority).symm.trans hperm
  rw [hgroup] at hsplit
  exact (List.perm_append_left_iff _).mp hsplit

end Tensor

/-! ### Lines and doors -/

/-- A line of tensors keeps to a schedule: first the tensors that it names, then fillers from the
highest to the lowest. -/
structure Schedule.LinesUp (schedule : Schedule) (fillers : List Int) (line : List Tensor) :
    Prop where
  priorities : line.map Tensor.priority = schedule.tokens ++ fillers
  total : schedule.totalTensors = line.length
  unnamed : ∀ p ∈ fillers, p ∉ schedule.tokens
  descending : fillers.Pairwise (· > ·)
  boundary : schedule.boundary ∈ schedule.tokens
  ascending : (Tensor.partsOf line).Pairwise fun t u => t.key < u.key

/-- A door that a completion always opens, and that cannot bank too many of them. -/
def Door.Sound : Door → Prop
  | .boundary => True
  | .counted limit => 1 ≤ limit ∧ limit + 1 < halfWordBound

instance (door : Door) : Decidable door.Sound :=
  match door with
  | .boundary => inferInstanceAs (Decidable True)
  | .counted _ => inferInstanceAs (Decidable (_ ∧ _))

/-- The most permits that a door banks. -/
def Door.most : Door → Nat
  | .boundary => 1
  | .counted limit => limit

namespace Schedule.LinesUp

variable {schedule : Schedule} {fillers : List Int} {consumed rest : List Tensor} {x : Tensor}

/-- What is left of the tokens and the fillers when some tensors have been staged. -/
theorem drop_priorities (h : schedule.LinesUp fillers (consumed ++ rest)) :
    schedule.tokens.drop consumed.length ++
        fillers.drop (consumed.length - schedule.tokens.length) =
      rest.map Tensor.priority := by
  have hdrop := congrArg (List.drop consumed.length) h.priorities
  rw [List.map_append, List.drop_left' (List.length_map _), List.drop_append] at hdrop
  exact hdrop.symm

/-- The next tensor of the line is the one of the next token, if there is one. -/
theorem priority_of_scheduled (h : schedule.LinesUp fillers (consumed ++ x :: rest)) {token : Int}
    {later : List Int} (htokens : schedule.tokens.drop consumed.length = token :: later) :
    x.priority = token := by
  have hdrop := h.drop_priorities
  rw [htokens, List.cons_append, List.map_cons, List.cons.injEq] at hdrop
  exact hdrop.1.symm

/-- Behind the last token the line goes on with fillers, and the next of them is the highest. -/
theorem priority_of_filler (h : schedule.LinesUp fillers (consumed ++ x :: rest))
    (htokens : schedule.tokens.drop consumed.length = []) :
    x.priority ∉ schedule.tokens ∧ ∀ y ∈ rest, y.priority < x.priority := by
  have hdrop := h.drop_priorities
  rw [htokens, List.nil_append, List.map_cons] at hdrop
  have hsublist := List.drop_sublist (consumed.length - schedule.tokens.length) fillers
  rw [hdrop] at hsublist
  refine ⟨h.unnamed _ (hsublist.subset List.mem_cons_self), ?_⟩
  intro y hy
  exact (List.pairwise_cons.mp (h.descending.sublist hsublist)).1 _ (List.mem_map_of_mem hy)

/-- A line has a tensor of the boundary, and so a partition. -/
theorem length_partsOf_pos (h : schedule.LinesUp fillers rest) :
    0 < (Tensor.partsOf rest).length := by
  refine List.length_pos_iff.mpr fun hnil => ?_
  have hpriorities := h.priorities
  rw [Tensor.partsOf_eq_nil_iff.mp hnil, List.map_nil, eq_comm, List.append_eq_nil_iff]
    at hpriorities
  have hboundary := h.boundary
  rw [hpriorities.1] at hboundary
  cases hboundary

/-- No tokens are left behind the last tensor. -/
theorem length_tokens_le (h : schedule.LinesUp fillers rest) :
    schedule.tokens.length ≤ rest.length := by
  have hlength := congrArg List.length h.priorities
  rw [List.length_map, List.length_append] at hlength
  omega

end Schedule.LinesUp

/-! ### Passes over a line -/

namespace Replay

/-- A pass over a line of tensors: some have been staged, and the rest wait. -/
structure Follows (r : Replay) (fillers : List Int) (consumed rest : List Tensor) : Prop where
  line : r.schedule.LinesUp fillers (consumed ++ rest)
  door : r.door.Sound
  permits_le : r.permits ≤ r.door.most
  tokens : r.tokens = r.schedule.tokens.drop consumed.length
  stagedTensors : r.stagedTensors = consumed.length
  /-- The pass knows that it has staged the boundary. -/
  seen : r.schedule.boundary ∈ r.schedule.tokens.take consumed.length → r.boundarySeen = true
  /-- Only behind the boundary the door is closed. -/
  closed : r.permits = 0 → r.boundarySeen = true
  ordered : r.pending.ordered = true
  sorted : r.pending.tasks.Pairwise Task.Before
  waiting : r.pending.tasks.Perm (Tensor.partsOf rest)

/-- A tensor that passes the door brings no permit. -/
theorem permitsAfterTensor_le (r : Replay) : r.permitsAfterTensor ≤ r.permits := by
  unfold permitsAfterTensor
  split
  · exact Nat.zero_le _
  · exact Nat.sub_le _ _

namespace Follows

variable {r : Replay} {fillers : List Int} {consumed rest : List Tensor} {x : Tensor}

/-- The staging buffer is no part of what waits. -/
theorem of_staged (h : r.Follows fillers consumed rest) (staged : List Task) :
    Follows { r with staged } fillers consumed rest :=
  { h with }

/-- Behind the last token, the front of the store belongs to the highest filler. -/
theorem priority_front (h : r.Follows fillers consumed (x :: rest))
    (htokens : r.schedule.tokens.drop consumed.length = []) {t : Task} {ts : List Task}
    (htasks : r.pending.tasks = t :: ts) : t.priority = x.priority := by
  obtain ⟨u, us, hparts⟩ := List.exists_cons_of_ne_nil x.nonempty
  have hu : u ∈ t :: ts := htasks ▸ h.waiting.mem_iff.mpr (by simp [hparts])
  have hux : u.priority = x.priority := x.ofPriority u (by simp [hparts])
  have hle : u.priority ≤ t.priority := by
    rcases List.mem_cons.mp hu with rfl | hu
    · exact Int.le_refl _
    · have hbefore := (List.pairwise_cons.mp (htasks ▸ h.sorted)).1 u hu
      unfold Task.Before at hbefore
      omega
  have hmem : t ∈ Tensor.partsOf (x :: rest) := h.waiting.mem_iff.mp (by simp [htasks])
  rcases List.mem_append.mp hmem with hmem | hmem
  · exact x.ofPriority t hmem
  · obtain ⟨y, hy, hty⟩ := List.mem_flatMap.mp hmem
    have hlt := (h.line.priority_of_filler htokens).2 y hy
    have hof := y.ofPriority t hty
    omega

/-- The tensor that comes next is the next one of the line. -/
theorem candidate? (h : r.Follows fillers consumed (x :: rest)) :
    r.candidate? = some (x.priority, !r.tokens.isEmpty) := by
  obtain ⟨t, ts, hparts⟩ := List.exists_cons_of_ne_nil x.nonempty
  have ht : t ∈ r.pending.tasks := h.waiting.mem_iff.mpr (by simp [hparts])
  have htx : t.priority = x.priority := x.ofPriority t (by simp [hparts])
  cases hdrop : r.schedule.tokens.drop consumed.length with
  | cons token later =>
    have hx := h.line.priority_of_scheduled hdrop
    have hpending : r.pending.hasPriority token = true :=
      Pending.hasPriority_iff.mpr ⟨t, ht, htx.trans hx⟩
    simp [Replay.candidate?, h.tokens, hdrop, hpending, hx]
  | nil =>
    obtain ⟨u, us, htasks⟩ := List.exists_cons_of_ne_nil (List.ne_nil_of_mem ht)
    have hu := h.priority_front hdrop htasks
    have hx := (h.line.priority_of_filler hdrop).1
    have hfind : r.unscheduled? = some x.priority := by
      simp [unscheduled?, htasks, hu, hx]
    simp [Replay.candidate?, h.tokens, hdrop, hfind]

/-- The pass has reached the boundary if it is among the tokens up to the next one. -/
theorem boundarySeen_reach (h : r.Follows fillers consumed (x :: rest))
    (hmem : r.schedule.boundary ∈ r.schedule.tokens.take (consumed.length + 1)) :
    (r.reach x.priority (!r.tokens.isEmpty)).boundarySeen = true := by
  simp only [reach, Bool.or_eq_true, Bool.and_eq_true, beq_iff_eq]
  rw [List.take_add, List.mem_append] at hmem
  rcases hmem with hbefore | hnow
  · exact .inl (h.seen hbefore)
  · cases hdrop : r.schedule.tokens.drop consumed.length with
    | nil => simp [hdrop] at hnow
    | cons token later =>
      have hx := h.line.priority_of_scheduled hdrop
      have hboundary : r.schedule.boundary = token := by simpa [hdrop] using hnow
      exact .inr ⟨by simp [h.tokens, hdrop], hx.trans hboundary.symm⟩

/-- The next tensor of the line moves into the staging buffer. -/
theorem stage (h : r.Follows fillers consumed (x :: rest)) (hempty : r.staged = []) :
    let r' := (r.reach x.priority (!r.tokens.isEmpty)).stage x.priority (!r.tokens.isEmpty)
    r'.Follows fillers (consumed ++ [x]) rest ∧ r'.staged = x.parts := by
  have hascending := h.line.ascending
  rw [Tensor.partsOf_append] at hascending
  obtain ⟨hgroup, hrest⟩ :=
    Tensor.takeGroup h.waiting h.sorted (List.pairwise_append.mp hascending).2.1
  refine ⟨{
    line := by rw [List.append_assoc]; exact h.line
    door := h.door
    permits_le := ?_
    tokens := ?_
    stagedTensors := by rw [List.length_append]; exact congrArg (· + 1) h.stagedTensors
    seen := fun hmem => h.boundarySeen_reach (by rwa [List.length_append] at hmem)
    closed := ?_
    ordered := h.ordered
    sorted := h.sorted.sublist (Pending.takeGroup_sublist x.priority r.pending)
    waiting := hrest }, ?_⟩
  · have hle := h.permits_le
    have hafter := r.permitsAfterTensor_le
    simp only [Replay.stage]
    split
    · exact Nat.le_trans hafter hle
    · exact hle
  · have htail : r.tokens.tail = r.schedule.tokens.drop (consumed.length + 1) := by
      rw [h.tokens, List.tail_drop]
    cases htokens : r.tokens with
    | nil => simpa [Replay.stage, reach, htokens] using htail
    | cons token later => simpa [Replay.stage, reach, htokens] using htail
  · intro hzero
    cases hreached : (r.reach x.priority (!r.tokens.isEmpty)).boundarySeen with
    | true => exact hreached
    -- before the boundary the tensor brings no change to the permits
    | false =>
      have hpermits : r.permits = 0 := by
        simp only [Replay.stage, hreached, Bool.false_eq_true, if_false] at hzero
        exact hzero
      simp [reach, h.closed hpermits] at hreached
  · simp [Replay.stage, reach, hempty, hgroup]

/-- While tensors of the line are on their way, a poll either waits for the door with an empty
staging buffer, or has the next partition of the line at the front of the buffer. -/
theorem refill (h : r.Follows fillers consumed rest)
    (hmore : r.staged ++ Tensor.partsOf rest ≠ []) :
    (r.permits = 0 ∧ r.staged = [] ∧ r.refilled = r) ∨
      ∃ consumed' rest', consumed' ++ rest' = consumed ++ rest ∧
        r.refilled.Follows fillers consumed' rest' ∧ r.refilled.staged ≠ [] ∧
        r.refilled.staged ++ Tensor.partsOf rest' = r.staged ++ Tensor.partsOf rest := by
  have hrefill := r.refill
  by_cases hempty : r.staged = []
  · obtain ⟨x, rest, rfl⟩ : ∃ x later, rest = x :: later := by
      refine List.exists_cons_of_ne_nil fun hnil => hmore ?_
      rw [hempty, hnil, Tensor.partsOf_nil, List.append_nil]
    have hcandidate := h.candidate?
    generalize r.newGroup? = group at hrefill
    generalize hr' : r.refilled = r' at hrefill
    cases hrefill with
    | kept hkept => simp [hempty, hcandidate] at hkept
    | held _ hnext hseen hclosed =>
      cases hcandidate.symm.trans hnext
      -- a closed door has the boundary behind it already
      exact .inl ⟨hclosed, hempty, r.reach_of_boundarySeen (h.closed hclosed) _ _⟩
    | moved _ hnext _ =>
      cases hcandidate.symm.trans hnext
      obtain ⟨hfollows, hstaged⟩ := h.stage hempty
      refine .inr ⟨consumed ++ [x], rest, List.append_assoc .., hfollows, ?_, ?_⟩
      · rw [hstaged]
        exact x.nonempty
      · rw [hstaged, hempty, Tensor.partsOf_cons, List.nil_append]
  · have hkept : r.refilled = r := by simp [refilled, hempty]
    rw [hkept]
    exact .inr ⟨consumed, rest, rfl, h, hempty, rfl⟩

/-! ### Completions -/

/-- A sound door grants every permit. -/
theorem exists_grantPermit (h : r.Follows fillers consumed rest) :
    ∃ permits, r.grantPermit = .ok permits ∧ 0 < permits ∧ permits ≤ r.door.most := by
  have hdoor := h.door
  have hle := h.permits_le
  unfold grantPermit
  cases hcase : r.door with
  | boundary => exact ⟨1, rfl, Nat.one_pos, Nat.le_refl 1⟩
  | counted limit =>
    rw [hcase] at hdoor hle
    obtain ⟨hlimit, hbound⟩ := hdoor
    have hle : r.permits ≤ limit := hle
    refine ⟨min (r.permits + 1) limit, if_pos (by omega), by omega, ?_⟩
    exact Nat.min_le_right _ _

/-- After a completion, the door is open. -/
theorem completed (h : r.Follows fillers consumed rest) :
    r.completed.Follows fillers consumed rest ∧ 0 < r.completed.permits := by
  obtain ⟨permits, hgrant, hpos, hmost⟩ := h.exists_grantPermit
  cases hseen : r.boundarySeen with
  | true =>
    have heq : r.completed = { r with permits } := by simp [Replay.completed, hseen, hgrant]
    rw [heq]
    exact ⟨{ h with permits_le := hmost, closed := fun _ => hseen }, hpos⟩
  | false =>
    have heq : r.completed = r := by simp [Replay.completed, hseen]
    rw [heq]
    refine ⟨h, Nat.pos_of_ne_zero fun hzero => ?_⟩
    rw [h.closed hzero] at hseen
    cases hseen

/-! ### Between two passes -/

/-- A pass is not complete while tensors of its line are on their way. -/
theorem not_rollsOver (h : r.Follows fillers consumed rest)
    (hmore : r.staged ++ Tensor.partsOf rest ≠ []) : ¬ r.RollsOver := by
  rintro ⟨hcount, -, hempty, -⟩
  rw [h.line.total, h.stagedTensors, List.length_append] at hcount
  have hrest : rest = [] := List.eq_nil_of_length_eq_zero (by omega)
  exact hmore (by rw [hempty, hrest, Tensor.partsOf_nil, List.append_nil])

end Follows

/-- A replay between two passes: nothing is on its way, and the next poll starts a pass. -/
structure Rests (r : Replay) : Prop where
  door : r.door.Sound
  isOpen : 0 < r.permits
  permits_le : r.permits ≤ r.door.most
  staged : r.staged = []
  pending : r.pending = { ordered := true }
  tokens : r.rolled.tokens = r.schedule.tokens
  stagedTensors : r.rolled.stagedTensors = 0

/-- A replay rests before its first pass. -/
theorem Rests.start {schedule : Schedule} {door : Door} (htokens : schedule.tokens ≠ [])
    (hdoor : door.Sound) : (Replay.start schedule door).Rests := by
  have hrolled : (Replay.start schedule door).rolled = Replay.start schedule door :=
    if_neg fun hroll => htokens hroll.2.1
  refine {
    door := hdoor
    isOpen := Nat.one_pos
    permits_le := ?_
    staged := rfl
    pending := rfl
    tokens := by rw [hrolled]; rfl
    stagedTensors := by rw [hrolled]; rfl }
  cases door with
  | boundary => exact Nat.le_refl 1
  | counted limit => exact hdoor.1

/-- What is pending has no part in a rollover. -/
theorem rolled_pending (r : Replay) (pending : Pending) :
    rolled { r with pending } = { r.rolled with pending } := by
  have hroll : RollsOver { r with pending } ↔ r.RollsOver := .rfl
  simp only [rolled, hroll]
  split <;> rfl

/-- When a whole line waits, a pass over it starts. -/
theorem Rests.follows {r : Replay} {fillers : List Int} {line : List Tensor} (h : r.Rests)
    (hline : r.schedule.LinesUp fillers line) {pending : Pending}
    (hordered : pending.ordered = true)
    (hsorted : pending.tasks.Pairwise Task.Before)
    (hperm : pending.tasks.Perm (Tensor.partsOf line)) :
    (rolled { r with pending }).Follows fillers [] line := by
  have hsame : r.rolled.schedule = r.schedule ∧ r.rolled.door = r.door ∧
      r.rolled.permits = r.permits := by
    unfold rolled
    split <;> exact ⟨rfl, rfl, rfl⟩
  obtain ⟨hschedule, hdoor, hpermits⟩ := hsame
  rw [rolled_pending]
  exact {
    line := by rw [hschedule]; exact hline
    door := by rw [hdoor]; exact h.door
    permits_le := by rw [hdoor, hpermits]; exact h.permits_le
    tokens := by rw [hschedule]; exact h.tokens
    stagedTensors := h.stagedTensors
    seen := fun hmem => by simp at hmem
    closed := fun hzero => absurd (hpermits ▸ hzero) (Nat.ne_of_gt h.isOpen)
    ordered := hordered
    sorted := hsorted
    waiting := hperm }

/-- When a whole line has left and the door is open, the pass is complete. -/
theorem Follows.rests {r : Replay} {fillers : List Int} {line : List Tensor}
    (h : r.Follows fillers line []) (hempty : r.staged = []) (hopen : 0 < r.permits) :
    r.RollsOver ∧ r.Rests := by
  have hroll : r.RollsOver := by
    have hline := h.line
    rw [List.append_nil] at hline
    refine ⟨?_, ?_, hempty, hopen⟩
    · exact Nat.le_of_eq (hline.total.trans h.stagedTensors.symm)
    · rw [h.tokens, List.drop_eq_nil_of_le hline.length_tokens_le]
  have hrolled : r.rolled = r.nextPass := if_pos hroll
  refine ⟨hroll, {
    door := h.door
    isOpen := hopen
    permits_le := h.permits_le
    staged := hempty
    pending := ?_
    tokens := by rw [hrolled]; rfl
    stagedTensors := by rw [hrolled]; rfl }⟩
  have htasks : r.pending.tasks = [] := h.waiting.eq_nil
  calc r.pending
    _ = Pending.mk r.pending.ordered r.pending.tasks := rfl
    _ = Pending.mk true [] := by rw [htasks, h.ordered]

end Replay

end TensorDispatch
