import TensorDispatch.Proofs.Throttle.Trace

/-!
# Submissions

What a submission leaves behind, refused ones included.

* `Throttle.submit_of_accepts`, `Throttle.submit_of_not_accepts` — a throttle refuses the head of an
  iteration whose timeline does not fit the clock, and no other gradient;
* `Queue.state_submit_of_named` — a named task is counted and placed, and noted once it waits;
* `Queue.state_place_gradient`, `Queue.place_control` — where it is placed.
-/

namespace TensorDispatch

/-! ### Throttles -/

namespace Throttle

variable {now : Int} {t : Task} {w : Throttle}

/-- The timeline after a submission: the head of an iteration restarts it. -/
def heard (now : Int) (t : Task) (w : Throttle) : Throttle :=
  if w.isHead t.name then (w.restart now).state else w

/-- Whether a gradient is accepted: the timeline that it starts has to fit the clock. -/
def Accepts (now : Int) (t : Task) (w : Throttle) : Prop :=
  w.isHead t.name = true → IsSigned (now + w.lengths.headD 0)

theorem state_restart (now : Int) (w : Throttle) :
    (w.restart now).state =
      { w with
        index := 0
        budget := w.fullBudget
        deadline :=
          if IsSigned (now + w.lengths.headD 0) then now + w.lengths.headD 0 else w.deadline } := by
  by_cases h : IsSigned (now + w.lengths.headD 0)
  · simp only [restart, addSigned_of_isSigned h, if_pos h, Outcome.state_answered]
  · simp only [restart, addSigned_of_not_isSigned h, if_neg h, Outcome.state_refused]

@[simp] theorem pending_heard (now : Int) (t : Task) (w : Throttle) :
    (w.heard now t).pending = w.pending := by
  unfold heard
  split
  · exact w.pending_restart now
  · rfl

theorem submit_of_accepts (h : w.Accepts now t) :
    w.submit now t = .answered () ((w.heard now t).waiting t) := by
  cases hhead : w.isHead t.name with
  | true =>
    have hrestart : (w.restart now).IsAnswered := by
      simp only [restart, addSigned_of_isSigned (h hhead), Outcome.isAnswered_answered]
    simp only [submit, heard, hhead, if_true, restart_of_isAnswered hrestart]
    rfl
  | false => simp [submit, heard, waiting, hhead]

theorem submit_of_not_accepts (h : ¬ w.Accepts now t) :
    w.submit now t = .refused .sumOverflow (w.heard now t) := by
  obtain ⟨hhead, hlate⟩ := Classical.not_imp.mp h
  simp only [submit, heard, hhead, if_true, restart, addSigned_of_not_isSigned hlate]
  rfl

end Throttle

/-! ### Queues -/

/-- The policy after the submission of a gradient. -/
def Policy.join (now : Int) (t : Task) : Policy → Policy
  | plain => plain
  | replay r => replay (r.submit t)
  | throttle w => throttle (w.submit now t).state

namespace Queue

variable {q : Queue} {t : Task}

/-- A policy takes the gradients. -/
theorem state_place_gradient (h : t.isGradient = true) (hpolicy : q.policy ≠ .plain) (now : Int) :
    (q.place now t).state = { q with policy := q.policy.join now t } := by
  cases hp : q.policy with
  | plain => exact absurd hp hpolicy
  | replay r => simp [place, h, hp, Policy.join]
  | throttle w => simp [place, h, hp, Policy.join]

/-- All other tasks are scanned for. -/
theorem place_control (h : t.isGradient = false) (now : Int) :
    q.place now t = .answered () { q with scanned := q.scanned.insert t } := by
  simp [place, h]

/-- A task is placed alike whatever has been counted. -/
theorem place_recounted (now : Int) (t : Task) (q : Queue) (stats : Stats) :
    place now t { q with stats } = (q.place now t).within ({ · with stats }) := by
  simp only [place]
  split
  · split <;> rfl
  · rfl

/-- A task that is placed is one more that waits. -/
theorem pendingSize_place (now : Int) (t : Task) (q : Queue) :
    (q.place now t).state.pendingSize =
      q.pendingSize + if (q.place now t).IsAnswered then 1 else 0 := by
  simp only [place]
  split
  · cases hpolicy : q.policy with
    | plain => simp [pendingSize, hpolicy, Policy.pendingSize]
    | replay r => simp [pendingSize, hpolicy, Policy.pendingSize, Replay.submit, Nat.add_assoc]
    | throttle w =>
      by_cases haccepts : w.Accepts now t
      · simp [pendingSize, hpolicy, Policy.pendingSize, Throttle.submit_of_accepts haccepts,
          Outcome.isAnswered_within, Throttle.waiting, Nat.add_assoc]
      · simp [pendingSize, hpolicy, Policy.pendingSize, Throttle.submit_of_not_accepts haccepts,
          Outcome.isAnswered_within]
  · simp [pendingSize, Nat.add_right_comm]

theorem submit_of_unnamed (h : t.name = "") (now : Int) (q : Queue) :
    q.submit now t = .refused (.unnamedTask t.key) q := by
  simp [submit, h]

/-- A named task is accepted if it can be placed. -/
theorem result_submit_of_named (h : t.name ≠ "") (now : Int) (q : Queue) :
    (q.submit now t).result = (q.place now t).result := by
  have hname : ¬ t.name.isEmpty = true := by simpa using h
  rw [submit, if_neg hname, place_recounted]
  rcases hplace : q.place now t with ⟨f | _, q'⟩ <;> rfl

/-- A task that cannot be placed changes nothing among those that wait. -/
theorem tasks_place_of_refused {now : Int} {f : Fault} (h : (q.place now t).result = .error f) :
    (q.place now t).state.tasks = q.tasks := by
  cases hgradient : t.isGradient with
  | false => simp [place_control hgradient] at h
  | true =>
    cases hpolicy : q.policy with
    | plain => simp [place, hgradient, hpolicy] at h
    | replay r => simp [place, hgradient, hpolicy] at h
    | throttle w =>
      by_cases haccepts : w.Accepts now t
      · simp [place, hgradient, hpolicy, Throttle.submit_of_accepts haccepts] at h
      · simp [place, hgradient, hpolicy, Throttle.submit_of_not_accepts haccepts, tasks,
          Policy.tasks, Policy.pendingTasks, Policy.stagedTasks]

/-- A named task is counted and placed, and noted once it waits. -/
theorem state_submit_of_named (h : t.name ≠ "") (now : Int) (q : Queue) :
    (q.submit now t).state =
      { (q.place now t).state with
        stats :=
          if (q.place now t).IsAnswered then q.stats.countSubmitted.notePending (q.pendingSize + 1)
          else q.stats.countSubmitted } := by
  have hname : ¬ t.name.isEmpty = true := by simpa using h
  have hsize := q.pendingSize_place now t
  rw [submit, if_neg hname, place_recounted]
  rcases hplace : q.place now t with ⟨f | _, q'⟩
  · simp [Outcome.within]
  · have hplaced : q'.pendingSize = q.pendingSize + 1 := by
      simpa [hplace, Outcome.IsAnswered] using hsize
    have hpending : pendingSize { q' with stats := q.stats.countSubmitted } = q.pendingSize + 1 :=
      hplaced
    simp [Outcome.within, hpending, Outcome.IsAnswered]

end Queue

end TensorDispatch
