import TensorDispatch.Proofs.Replay.Poll
import TensorDispatch.Queue

/-!
# Choices of a queue

Where a queue keeps its tasks, and what it does to them when it chooses one.

* `Queue.tasks` — all tasks inside a queue: the scanned ones, the pending and the staged
  gradients;
* `Queue.choose_spec`, `Queue.chooseKey_cases` — a choice takes out the task it answers with, which
  is admitted, and no other; it touches neither credit nor the counters of submitted, dispatched
  and finished tasks (`Stats.ledger`).
-/

namespace TensorDispatch

/-- The task that a call answers with. -/
def Outcome.taken {σ : Type} (o : Outcome σ (Option Task)) : List Task :=
  match o.result with
  | .ok t => t.toList
  | .error _ => []

@[simp] theorem Outcome.taken_answered {σ : Type} (t : Option Task) (s : σ) :
    (Outcome.answered t s).taken = t.toList := rfl

@[simp] theorem Outcome.taken_refused {σ : Type} (f : Fault) (s : σ) :
    (Outcome.refused f s : Outcome σ (Option Task)).taken = [] := rfl

@[simp] theorem Outcome.taken_within {σ τ : Type} (embed : σ → τ) (o : Outcome σ (Option Task)) :
    (o.within embed).taken = o.taken := rfl

/-- The counters that only submissions, dispatches and completions change. -/
def Stats.ledger (s : Stats) : Stats :=
  { s with barrierBlocks := 0, windowRolls := 0, iterations := 0 }

@[simp] theorem Stats.ledger_countBlock (s : Stats) : s.countBlock.ledger = s.ledger := rfl

@[simp] theorem Stats.ledger_countRoll (s : Stats) : s.countRoll.ledger = s.ledger := rfl

@[simp] theorem Stats.ledger_countIteration (s : Stats) : s.countIteration.ledger = s.ledger := rfl

theorem Stats.eq_of_ledger {s s' : Stats} (h : s.ledger = s'.ledger) :
    s.submitted = s'.submitted ∧ s.dispatched = s'.dispatched ∧ s.finished = s'.finished ∧
      s.peakPending = s'.peakPending := by
  simp only [ledger, Stats.mk.injEq] at h
  exact ⟨h.1, h.2.1, h.2.2.1, h.2.2.2.2.2.2⟩

/-! ### Replays -/

namespace Replay

/-- All gradients of a replay. -/
def tasks (r : Replay) : List Task := r.pending.tasks ++ r.staged

@[simp] theorem tasks_rolled (r : Replay) : r.rolled.tasks = r.tasks := by
  by_cases h : r.RollsOver <;> simp [rolled, h, nextPass, tasks]

theorem Refill.perm {r r' : Replay} {group : Option (List Task)} (h : Refill r group r') :
    r.tasks.Perm r'.tasks := by
  cases h with
  | kept => exact .refl _
  | held => exact .refl _
  | @moved priority scheduled hempty _ _ =>
    have hperm := r.pending.perm_takeGroup priority
    simp only [tasks, stage, reach, hempty, List.append_nil, List.nil_append]
    exact hperm.trans List.perm_append_comm

theorem Refill.size_le {r r' : Replay} {group : Option (List Task)} (h : Refill r group r') :
    r'.pending.size ≤ r.pending.size := by
  cases h with
  | kept => exact Nat.le_refl _
  | held => exact Nat.le_refl _
  | @moved priority scheduled _ _ _ =>
    have hlength := (r.pending.perm_takeGroup priority).length_eq
    simp only [List.length_append] at hlength
    simp only [Pending.size, stage, reach]
    omega

theorem pending_releaseStaged (admits : Task → Bool) (r : Replay) :
    (r.releaseStaged admits).2.pending = r.pending := by
  obtain ⟨later, heq⟩ := r.exists_releaseStaged_eq admits
  rw [heq]

theorem size_poll_le (admits : Task → Bool) (r : Replay) (stats : Stats) :
    (r.poll admits stats).2.1.pending.size ≤ r.pending.size := by
  rw [poll_eq, pending_releaseStaged, ← r.pending_rolled]
  exact r.rolled.refill.size_le

theorem perm_poll (admits : Task → Bool) (r : Replay) (stats : Stats) :
    r.tasks.Perm ((r.poll admits stats).1.toList ++ (r.poll admits stats).2.1.tasks) := by
  have hrefill : r.tasks.Perm r.rolled.refilled.tasks := by
    simpa using r.rolled.refill.perm
  refine hrefill.trans ?_
  rw [poll_eq]
  cases h : (r.rolled.refilled.releaseStaged admits).1 with
  | none => simp [releaseStaged_eq_none h]
  | some t =>
    obtain ⟨-, later, hstaged, heq⟩ := releaseStaged_eq_some h
    simp [heq, tasks, hstaged]

@[simp] theorem ledger_statsAfterPoll (r : Replay) (stats : Stats) :
    (r.statsAfterPoll stats).ledger = stats.ledger := by
  by_cases hroll : r.RollsOver <;> by_cases hheld : r.rolled.Holds <;>
    simp [statsAfterPoll, hroll, hheld]

end Replay

/-! ### Throttles -/

namespace Throttle

@[simp] theorem pending_roll (w : Throttle) : w.roll.state.pending = w.pending := by
  simp only [roll]
  split
  · rfl
  · split <;> rfl

theorem releaseFirst_eq_some {admits : Task → Bool} {w : Throttle} {t : Task}
    (h : (w.releaseFirst admits).1 = some t) :
    admits t = true ∧ w.pending.tasks = t :: (w.releaseFirst admits).2.pending.tasks := by
  unfold releaseFirst at h ⊢
  split at h
  · simp at h
  · rename_i u later htasks
    split at h
    · rename_i hroom
      cases h
      simp only [Bool.and_eq_true] at hroom
      exact ⟨hroom.2, by simp [hroom.1, hroom.2, htasks]⟩
    · simp at h

theorem releaseFirst_eq_none {admits : Task → Bool} {w : Throttle}
    (h : (w.releaseFirst admits).1 = none) : (w.releaseFirst admits).2 = w := by
  unfold releaseFirst at h ⊢
  split at h
  · rfl
  · split at h
    · simp at h
    · rename_i hroom
      simp [hroom]

/-- What a poll can end in: an answer of nothing, a fault of a roll, or the first gradient. -/
theorem poll_cases (admits : Task → Bool) (now : Int) (w : Throttle) (stats : Stats) :
    (∃ w' stats', w.poll admits now stats = .answered none (w', stats') ∧
      w'.pending = w.pending ∧ stats'.ledger = stats.ledger) ∨
    (∃ f w', w.poll admits now stats = .refused f (w', stats) ∧ w'.pending = w.pending) ∨
    ∃ t w', w.poll admits now stats = .answered (some t) (w', stats) ∧ admits t = true ∧
      w.pending.tasks = t :: w'.pending.tasks := by
  unfold poll
  split
  · exact .inl ⟨w, stats, rfl, rfl, rfl⟩
  · split
    · have hpending := pending_roll w
      split
      · rename_i hroll
        rw [hroll] at hpending
        exact .inl ⟨_, _, rfl, hpending, rfl⟩
      · rename_i hroll
        rw [hroll] at hpending
        exact .inr (.inl ⟨_, _, rfl, hpending⟩)
    · rcases hrelease : w.releaseFirst admits with ⟨_ | t, w'⟩
      · have hw := releaseFirst_eq_none (congrArg Prod.fst hrelease)
        simp only [hrelease] at hw
        exact .inl ⟨w', stats, rfl, by rw [hw], rfl⟩
      · obtain ⟨hadmits, htasks⟩ := releaseFirst_eq_some (congrArg Prod.fst hrelease)
        rw [hrelease] at htasks
        exact .inr (.inr ⟨t, w', rfl, hadmits, htasks⟩)

end Throttle

/-! ### Queues -/

namespace Policy

/-- The gradients that wait. -/
def pendingTasks : Policy → List Task
  | plain => []
  | replay r => r.pending.tasks
  | throttle w => w.pending.tasks

/-- The staged partitions, in order. -/
def stagedTasks : Policy → List Task
  | replay r => r.staged
  | _ => []

/-- All gradients with a policy. -/
def tasks (p : Policy) : List Task := p.pendingTasks ++ p.stagedTasks

@[simp] theorem length_pendingTasks (p : Policy) : p.pendingTasks.length = p.pendingSize := by
  cases p <;> rfl

@[simp] theorem length_stagedTasks (p : Policy) : p.stagedTasks.length = p.stagedSize := by
  cases p <;> rfl

end Policy

namespace Queue

/-- All tasks inside a queue. -/
def tasks (q : Queue) : List Task := q.scanned.tasks ++ q.policy.tasks

@[simp] theorem length_tasks (q : Queue) : q.tasks.length = q.size := by
  simp [tasks, Policy.tasks, size, pendingSize, Pending.size, Nat.add_assoc]

variable (readiness : Readiness) (now : Int) (q : Queue)

/-- What the choice of a gradient leaves alone, and what it takes out. -/
theorem chooseGradient_spec :
    let o := q.chooseGradient readiness now
    (∃ policy stats, o.state = { q with policy, stats } ∧ stats.ledger = q.stats.ledger) ∧
      q.policy.tasks.Perm (o.taken ++ o.state.policy.tasks) ∧
      o.state.policy.pendingSize ≤ q.policy.pendingSize ∧
      ∀ t ∈ o.taken, q.admits readiness t = true := by
  unfold chooseGradient
  split
  · rename_i hpolicy
    exact ⟨⟨_, _, rfl, rfl⟩, .refl _, Nat.le_refl _, by simp⟩
  · rename_i r hpolicy
    have hperm := r.perm_poll (q.admits readiness) q.stats
    have hsize := r.size_poll_le (q.admits readiness) q.stats
    rw [Replay.poll_eq] at hperm hsize ⊢
    rw [hpolicy]
    refine ⟨⟨_, _, rfl, Replay.ledger_statsAfterPoll r q.stats⟩, hperm, hsize, ?_⟩
    · intro t ht
      exact (Replay.releaseStaged_eq_some (Option.mem_toList.mp ht)).1
  · rename_i w hpolicy
    rw [hpolicy]
    rcases w.poll_cases (q.admits readiness) now q.stats with
      ⟨w', stats', hpoll, hpending, hledger⟩ | ⟨f, w', hpoll, hpending⟩ |
        ⟨t, w', hpoll, hadmits, htasks⟩
    · rw [hpoll]
      refine ⟨⟨_, _, rfl, hledger⟩, ?_, ?_, by simp⟩
      · simp [Policy.tasks, Policy.pendingTasks, Policy.stagedTasks, hpending]
      · simp [Policy.pendingSize, hpending]
    · rw [hpoll]
      refine ⟨⟨_, _, rfl, rfl⟩, ?_, ?_, by simp⟩
      · simp [Policy.tasks, Policy.pendingTasks, Policy.stagedTasks, hpending]
      · simp [Policy.pendingSize, hpending]
    · rw [hpoll]
      refine ⟨⟨_, _, rfl, rfl⟩, ?_, ?_, by simp [hadmits]⟩
      · simp [Policy.tasks, Policy.pendingTasks, Policy.stagedTasks, htasks]
      · simp [Policy.pendingSize, Pending.size, htasks]

/-- What the choice of a scanned task leaves alone, and what it takes out. -/
theorem chooseScanned_spec :
    let c := q.chooseScanned readiness
    (∃ scanned, c.2 = { q with scanned }) ∧
      q.scanned.tasks.Perm (c.1.toList ++ c.2.scanned.tasks) ∧
      ∀ t ∈ c.1, q.admits readiness t = true := by
  unfold chooseScanned
  split
  · exact ⟨⟨_, rfl⟩, .refl _, by simp⟩
  · rename_i t scanned htake
    refine ⟨⟨_, rfl⟩, Pending.perm_takeFirst? htake, ?_⟩
    intro u hu
    cases hu
    exact List.find?_some (Pending.takeFirst?_eq_some htake).1

/-- What a choice leaves alone, and what it takes out. -/
theorem choose_spec :
    let o := q.choose readiness now
    (∃ scanned policy stats, o.state = { q with scanned, policy, stats } ∧
        stats.ledger = q.stats.ledger) ∧
      q.tasks.Perm (o.taken ++ o.state.tasks) ∧ o.state.pendingSize ≤ q.pendingSize ∧
      ∀ t ∈ o.taken, q.admits readiness t = true := by
  have hgradient := q.chooseGradient_spec readiness now
  unfold choose
  rcases hchoose : q.chooseGradient readiness now with ⟨_ | _ | t, q'⟩
  · rw [hchoose] at hgradient
    obtain ⟨⟨policy, stats, rfl, hledger⟩, hperm, hsize, hadmits⟩ := hgradient
    exact ⟨⟨_, _, _, rfl, hledger⟩, List.Perm.append_left _ hperm, Nat.add_le_add_left hsize _,
      hadmits⟩
  · rw [hchoose] at hgradient
    obtain ⟨⟨policy, stats, rfl, hledger⟩, hperm, hsize, -⟩ := hgradient
    -- the policy lets nothing go, so the scanned tasks have their turn
    have hscanned := chooseScanned_spec readiness { q with policy, stats }
    rcases hscan : chooseScanned readiness { q with policy, stats } with ⟨t, q''⟩
    rw [hscan] at hscanned
    obtain ⟨⟨scanned, rfl⟩, hperm', hadmits⟩ := hscanned
    simp only [hscan]
    refine ⟨⟨_, _, _, rfl, hledger⟩, ?_, Nat.add_le_add ?_ hsize, ?_⟩
    · have hpolicy : q.policy.tasks.Perm policy.tasks := hperm
      simpa [tasks] using hperm'.append hpolicy
    · have hlength := hperm'.length_eq
      simp only [List.length_append] at hlength
      simp only [Outcome.state_answered, Pending.size]
      omega
    · intro u hu
      exact hadmits u (Option.mem_toList.mp hu)
  · rw [hchoose] at hgradient
    obtain ⟨⟨policy, stats, rfl, hledger⟩, hperm, hsize, hadmits⟩ := hgradient
    refine ⟨⟨_, _, _, rfl, hledger⟩, ?_, Nat.add_le_add_left hsize _, hadmits⟩
    exact (List.Perm.append_left _ hperm).trans List.perm_middle

/-- A policy decides what runs next, so no task is handed over by its key. -/
theorem chooseKey_of_policy_ne_plain (h : q.policy ≠ .plain) (key : Nat) :
    ∃ f, q.chooseKey readiness key = .refused f q := by
  unfold chooseKey
  split
  · exact ⟨_, rfl⟩
  · exact ⟨_, rfl⟩

/-- A queue that is asked for a key either refuses, finds nothing, or takes out the task. -/
theorem chooseKey_cases (key : Nat) :
    (∃ f scanned, q.chooseKey readiness key = .refused f { q with scanned }) ∨
    q.chooseKey readiness key = .answered none q ∨
    ∃ t scanned, q.chooseKey readiness key = .answered (some t) { q with scanned } ∧
      q.credit.isMetered = false ∧ q.policy = .plain ∧
      q.scanned.tasks.Perm (t :: scanned.tasks) := by
  unfold chooseKey
  split
  · exact .inl ⟨_, q.scanned, rfl⟩
  · rename_i hcredit
    split
    · exact .inl ⟨_, q.scanned, rfl⟩
    · rename_i hpolicy
      split
      · exact .inr (.inl rfl)
      · rename_i t scanned htake
        dsimp only
        split
        · refine .inr (.inr ⟨t, scanned, rfl, by simpa using hcredit, ?_, ?_⟩)
          · exact Decidable.not_not.mp hpolicy
          · exact Pending.perm_takeFirst? htake
        · exact .inl ⟨_, scanned, rfl⟩

end Queue

end TensorDispatch
