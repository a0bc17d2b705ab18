import TensorDispatch.Proofs.Pending
import TensorDispatch.Replay

/-!
# Polls of a replay

A poll is made of three steps: a complete pass rolls over (`Replay.rolled`), an empty staging
buffer is refilled (`Replay.refilled`), and the front of the buffer may leave. `Replay.poll_eq`
says so, and `Replay.refill` lists what a refill can do: nothing (`Replay.Refill.kept`), reach a
tensor and hold it back (`Replay.Refill.held`), or move it into the buffer
(`Replay.Refill.moved`). Nothing else about polls needs the definition of a poll.
-/

namespace TensorDispatch

namespace Replay

/-- The replay in the pass that is under way at a poll. -/
def rolled (r : Replay) : Replay := if r.RollsOver then r.nextPass else r

/-- The replay with an empty staging buffer refilled. -/
def refilled (r : Replay) : Replay := if r.staged.isEmpty then r.stageNext.2 else r

/-- The group that a refill moves into the staging buffer. -/
def newGroup? (r : Replay) : Option (List Task) :=
  if r.staged.isEmpty then
    match r.stageNext with
    | (.moved, r) => some r.staged
    | _ => none
  else none

/-- Whether a refill holds a tensor back behind the door. -/
def Holds (r : Replay) : Prop := r.staged = [] ∧ r.stageNext.1 = .heldBack

instance (r : Replay) : Decidable r.Holds := inferInstanceAs (Decidable (_ ∧ _))

/-- The counters after a poll. -/
def statsAfterPoll (r : Replay) (stats : Stats) : Stats :=
  let stats := if r.RollsOver then stats.countIteration else stats
  if r.rolled.Holds then stats.countBlock else stats

/-- The replay that has reached a tensor, which may be the boundary of the pass. -/
def reach (priority : Int) (scheduled : Bool) (r : Replay) : Replay :=
  { r with boundarySeen := r.boundarySeen || (scheduled && priority == r.schedule.boundary) }

/-- Behind the boundary there is nothing more to reach. -/
theorem reach_of_boundarySeen (r : Replay) (h : r.boundarySeen = true) (priority : Int)
    (scheduled : Bool) : r.reach priority scheduled = r := by
  simp only [reach, h, Bool.true_or]
  rw [← h]

/-- What a replay follows. -/
def plan (r : Replay) : Schedule × Door := (r.schedule, r.door)

/-! ### Candidates -/

theorem candidate?_eq_scheduled {r : Replay} {priority : Int}
    (h : r.candidate? = some (priority, true)) :
    (∃ later, r.tokens = priority :: later) ∧ r.pending.hasPriority priority = true := by
  unfold candidate? at h
  split at h
  · simp at h
  · rename_i token later htokens
    split at h
    · cases h
      exact ⟨⟨later, htokens⟩, ‹_›⟩
    · simp at h

theorem unscheduled?_eq_some {r : Replay} {priority : Int} (h : r.unscheduled? = some priority) :
    priority ∉ r.schedule.tokens ∧ r.pending.hasPriority priority = true := by
  obtain ⟨t, ht, rfl⟩ := Option.map_eq_some_iff.mp h
  refine ⟨by simpa using List.find?_some ht, ?_⟩
  exact Pending.hasPriority_iff.mpr ⟨t, List.mem_of_find?_eq_some ht, rfl⟩

theorem candidate?_eq_unscheduled {r : Replay} {priority : Int}
    (h : r.candidate? = some (priority, false)) :
    priority ∉ r.schedule.tokens ∧ r.pending.hasPriority priority = true := by
  unfold candidate? at h
  split at h
  · exact unscheduled?_eq_some (by simpa using h)
  · split at h
    · simp at h
    · exact unscheduled?_eq_some (by simpa using h)

/-- The tensor that comes next is waiting. -/
theorem hasPriority_of_candidate? {r : Replay} {priority : Int} {scheduled : Bool}
    (h : r.candidate? = some (priority, scheduled)) : r.pending.hasPriority priority = true := by
  cases scheduled with
  | true => exact (candidate?_eq_scheduled h).2
  | false => exact (candidate?_eq_unscheduled h).2

/-- A boundary is scheduled, so what is reached outside the schedule is none. -/
theorem boundarySeen_reach_iff {r : Replay} {priority : Int} {scheduled : Bool}
    (hscheduled : r.schedule.boundary ∈ r.schedule.tokens)
    (hnext : r.candidate? = some (priority, scheduled)) :
    (r.reach priority scheduled).boundarySeen = true ↔
      r.boundarySeen = true ∨ priority = r.schedule.boundary := by
  cases scheduled with
  | true => simp [reach]
  | false =>
    have hother : priority ≠ r.schedule.boundary := by
      rintro rfl
      exact (candidate?_eq_unscheduled hnext).1 hscheduled
    simp [reach, hother]

theorem permits_stage_reach (r : Replay) (priority : Int) (scheduled : Bool) :
    ((r.reach priority scheduled).stage priority scheduled).permits =
      if (r.reach priority scheduled).boundarySeen then r.permitsAfterTensor else r.permits := rfl

/-! ### Refills -/

/-- What a refill can make of a replay, and the group it moves into the staging buffer. -/
inductive Refill (r : Replay) : Option (List Task) → Replay → Prop
  /-- Partitions are still staged, or no tensor may come next. -/
  | kept (h : r.staged ≠ [] ∨ r.candidate? = none) : Refill r none r
  /-- The tensor that comes next waits behind the door. -/
  | held {priority : Int} {scheduled : Bool} (hempty : r.staged = [])
      (hnext : r.candidate? = some (priority, scheduled))
      (hseen : (r.reach priority scheduled).boundarySeen = true) (hclosed : r.permits = 0) :
      Refill r none (r.reach priority scheduled)
  /-- The tensor that comes next is staged. -/
  | moved {priority : Int} {scheduled : Bool} (hempty : r.staged = [])
      (hnext : r.candidate? = some (priority, scheduled))
      (hopen : (r.reach priority scheduled).boundarySeen = true → 0 < r.permits) :
      Refill r (some (r.pending.takeGroup priority).1)
        ((r.reach priority scheduled).stage priority scheduled)

theorem stageNext_of_candidate?_eq_none {r : Replay} (h : r.candidate? = none) :
    r.stageNext = (.nothingDue, r) := by
  simp [stageNext, h]

theorem stageNext_of_candidate?_eq_some {r : Replay} {priority : Int} {scheduled : Bool}
    (h : r.candidate? = some (priority, scheduled)) :
    r.stageNext =
      if (r.reach priority scheduled).boundarySeen && !r.isOpen then
        (.heldBack, r.reach priority scheduled)
      else (.moved, (r.reach priority scheduled).stage priority scheduled) := by
  simp only [stageNext, h]
  rfl

/-- A refill does one of the three. -/
theorem refill (r : Replay) : Refill r r.newGroup? r.refilled := by
  by_cases hempty : r.staged = []
  · cases hnext : r.candidate? with
    | none =>
      have hstage := stageNext_of_candidate?_eq_none hnext
      simpa [newGroup?, refilled, hempty, hstage] using Refill.kept (r := r) (Or.inr hnext)
    | some candidate =>
      obtain ⟨priority, scheduled⟩ := candidate
      have hstage := stageNext_of_candidate?_eq_some hnext
      -- a tensor is held back only behind the boundary and without a permit
      by_cases hheld : (r.reach priority scheduled).boundarySeen = true ∧ r.permits = 0
      · have hclosed : r.isOpen = false := by simp [isOpen, hheld.2]
        simpa [newGroup?, refilled, hempty, hstage, hheld.1, hclosed] using
          Refill.held hempty hnext hheld.1 hheld.2
      · have hopen : (r.reach priority scheduled).boundarySeen = true → 0 < r.permits := by
          intro hseen
          exact Nat.pos_of_ne_zero fun hzero => hheld ⟨hseen, hzero⟩
        have hpass : ((r.reach priority scheduled).boundarySeen && !r.isOpen) = false := by
          cases hseen : (r.reach priority scheduled).boundarySeen with
          | false => rfl
          | true => simpa [isOpen] using hopen hseen
        have hgroup : ((r.reach priority scheduled).stage priority scheduled).staged =
            (r.pending.takeGroup priority).1 := by
          simp [stage, reach, hempty]
        simpa [newGroup?, refilled, hempty, hstage, hpass, hgroup] using
          Refill.moved hempty hnext hopen
  · simpa [newGroup?, refilled, hempty] using Refill.kept (r := r) (Or.inl hempty)

/-! ### Polls -/

/-- A poll rolls over, refills and releases. -/
theorem poll_eq (admits : Task → Bool) (r : Replay) (stats : Stats) :
    r.poll admits stats =
      ((r.rolled.refilled.releaseStaged admits).1, (r.rolled.refilled.releaseStaged admits).2,
        r.statsAfterPoll stats) := by
  have hroll : r.rollOver stats =
      (r.rolled, if r.RollsOver then stats.countIteration else stats) := by
    by_cases h : r.RollsOver <;> simp [rollOver, rolled, h]
  simp only [poll, hroll, statsAfterPoll]
  -- from here on it does not matter whether the pass has rolled over
  generalize r.rolled = r'
  generalize (if r.RollsOver then stats.countIteration else stats) = stats'
  by_cases hempty : r'.staged = []
  · cases hnext : r'.candidate? with
    | none =>
      have hstage := stageNext_of_candidate?_eq_none hnext
      simp [hempty, hstage, refilled, Holds, releaseStaged]
    | some candidate =>
      have hstage := stageNext_of_candidate?_eq_some hnext
      split at hstage <;>
        simp [hempty, hstage, refilled, Holds, releaseStaged, reach]
  · simp [hempty, refilled, Holds]

/-- What a poll releases is admitted, and was at the front of the staging buffer. -/
theorem releaseStaged_eq_some {admits : Task → Bool} {r : Replay} {t : Task}
    (h : (r.releaseStaged admits).1 = some t) :
    admits t = true ∧ ∃ later, r.staged = t :: later ∧
      (r.releaseStaged admits).2 = { r with staged := later } := by
  unfold releaseStaged at h ⊢
  split at h
  · simp at h
  · rename_i u later hstaged
    split at h
    · rename_i hadmits
      cases h
      exact ⟨hadmits, later, hstaged, by simp [hadmits]⟩
    · simp at h

theorem releaseStaged_eq_none {admits : Task → Bool} {r : Replay}
    (h : (r.releaseStaged admits).1 = none) : (r.releaseStaged admits).2 = r := by
  unfold releaseStaged at h ⊢
  split at h
  · rfl
  · split at h
    · simp at h
    · rename_i hadmits
      simp [hadmits]

/-- A release changes the staging buffer alone. -/
theorem exists_releaseStaged_eq (admits : Task → Bool) (r : Replay) :
    ∃ later, (r.releaseStaged admits).2 = { r with staged := later } := by
  cases h : (r.releaseStaged admits).1 with
  | none => exact ⟨r.staged, releaseStaged_eq_none h⟩
  | some t =>
    obtain ⟨-, later, -, heq⟩ := releaseStaged_eq_some h
    exact ⟨later, heq⟩

/-! ### What a poll keeps -/

@[simp] theorem pending_rolled (r : Replay) : r.rolled.pending = r.pending := by
  unfold rolled
  split <;> rfl

@[simp] theorem staged_rolled (r : Replay) : r.rolled.staged = r.staged := by
  unfold rolled
  split <;> rfl

@[simp] theorem plan_rolled (r : Replay) : r.rolled.plan = r.plan := by
  unfold rolled
  split <;> rfl

theorem Refill.plan {r r' : Replay} {group : Option (List Task)} (h : Refill r group r') :
    r'.plan = r.plan := by
  cases h <;> rfl

@[simp] theorem plan_releaseStaged (admits : Task → Bool) (r : Replay) :
    (r.releaseStaged admits).2.plan = r.plan := by
  unfold releaseStaged
  split
  · rfl
  · split <;> rfl

end Replay

end TensorDispatch
