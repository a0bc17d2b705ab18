import TensorDispatch.Proofs.History
import TensorDispatch.Proofs.Queue.Operations

/-!
# Where faults come from

Which faults the operations of a queue can end in. `Action.MayFault` is the list, and
`Moment.mayFault` says that it is complete. Credit is never overdrawn: a task is admitted only when
its bytes are covered, and they are taken under the same call.
-/

namespace TensorDispatch

theorem fault_addSigned {a b : Int} {f : Fault} (h : addSigned a b = .error f) :
    f = .sumOverflow := by
  unfold addSigned at h
  split at h
  · cases h
  · cases h
    rfl

namespace Throttle

variable {w : Throttle} {f : Fault}

theorem fault_restart {now : Int} (h : (w.restart now).result = .error f) : f = .sumOverflow := by
  simp only [restart] at h
  split at h
  · cases h
  · rename_i hsum
    cases h
    exact fault_addSigned hsum

theorem fault_submit {now : Int} {t : Task} (h : (w.submit now t).result = .error f) :
    f = .sumOverflow := by
  unfold submit at h
  split at h
  · split at h
    · cases h
    · rename_i hrestart
      cases h
      exact fault_restart (congrArg Outcome.result hrestart)
  · cases h

theorem fault_roll (h : w.roll.result = .error f) : f = .sumOverflow := by
  simp only [roll] at h
  split at h
  · cases h
  · split at h
    · cases h
    · rename_i hsum
      cases h
      exact fault_addSigned hsum

theorem fault_poll {admits : Task → Bool} {now : Int} {stats : Stats}
    (h : (w.poll admits now stats).result = .error f) : f = .sumOverflow := by
  unfold poll at h
  split at h
  · cases h
  · split at h
    · split at h
      · cases h
      · rename_i hroll
        cases h
        exact fault_roll (congrArg Outcome.result hroll)
    · cases h

end Throttle

theorem Replay.fault_grantPermit {r : Replay} {f : Fault} (h : r.grantPermit = .error f) :
    f = .sumOverflow := by
  unfold grantPermit at h
  split at h
  · cases h
  · split at h
    · cases h
    · cases h
      rfl

namespace Queue

variable {q : Queue} {f : Fault}

theorem fault_place {now : Int} {t : Task} (h : (q.place now t).result = .error f) :
    f = .sumOverflow := by
  simp only [place] at h
  split at h
  · split at h
    · cases h
    · cases h
    · exact Throttle.fault_submit h
  · cases h

/-- A named task is refused by the arithmetic of its placement alone. -/
theorem fault_submit_of_named {now : Int} {t : Task} (hname : t.name ≠ "")
    (h : (q.submit now t).result = .error f) : f = .sumOverflow := by
  unfold submit at h
  rw [if_neg (by simpa using hname)] at h
  split at h
  · cases h
  · rename_i hplace
    cases h
    exact fault_place (congrArg Outcome.result hplace)

theorem fault_submit {now : Int} {t : Task} (h : (q.submit now t).result = .error f) :
    f = .unnamedTask t.key ∨ f = .sumOverflow := by
  by_cases hname : t.name = ""
  · rw [submit, if_pos (by simp [hname])] at h
    cases h
    exact .inl rfl
  · exact .inr (fault_submit_of_named hname h)

theorem fault_choose {readiness : Readiness} {now : Int}
    (h : (q.choose readiness now).result = .error f) : f = .sumOverflow := by
  have hgradient : ∀ {f'}, (q.chooseGradient readiness now).result = .error f' →
      f' = .sumOverflow := by
    intro f' hfault
    unfold chooseGradient at hfault
    split at hfault
    · cases hfault
    · cases hfault
    · exact Throttle.fault_poll hfault
  unfold choose at h
  rcases hchoose : q.chooseGradient readiness now with ⟨f' | _ | t, q'⟩
  · rw [hchoose] at h
    cases h
    exact hgradient (congrArg Outcome.result hchoose)
  · rw [hchoose] at h
    cases h
  · rw [hchoose] at h
    cases h

theorem fault_chooseKey {readiness : Readiness} {key : Nat}
    (h : (q.chooseKey readiness key).result = .error f) :
    f = .keyedOnCredit q.stage ∨ f = .keyedOnStrategy q.stage q.strategy ∨
      ∃ name, f = .keyedUnready name := by
  unfold chooseKey at h
  split at h
  · cases h
    exact .inl rfl
  · split at h
    · cases h
      exact .inr (.inl rfl)
    · split at h
      · cases h
      · dsimp only at h
        split at h
        · cases h
        · cases h
          exact .inr (.inr ⟨_, rfl⟩)

theorem fault_finish {len : Nat} (h : (q.finish len).result = .error f) :
    f = .sumOverflow ∨ q.credit.giveBack len = .error f := by
  have hcredit : ∀ {f'}, (returnCredit len { q with stats := q.stats.countFinished }).result =
      .error f' → q.credit.giveBack len = .error f' := by
    intro f' hfault
    unfold returnCredit at hfault
    split at hfault
    · cases hfault
    · rename_i hback
      cases hfault
      exact hback
  simp only [finish] at h
  split at h
  · split at h
    · split at h
      · cases h
      · rename_i hpermit
        cases h
        exact .inl (Replay.fault_grantPermit hpermit)
    · exact .inr (hcredit h)
  · exact .inr (hcredit h)

end Queue

/-! ### Actions -/

/-- The faults that an action on a queue can end in. -/
inductive Action.MayFault (q : Queue) : Action → Fault → Prop
  | unnamed (t : Task) : MayFault q (.submit t) (.unnamedTask t.key)
  | lateStart (t : Task) : MayFault q (.submit t) .sumOverflow
  | lateRoll : MayFault q .dispatch .sumOverflow
  | keyedOnCredit (key : Nat) : MayFault q (.dispatchKey key) (.keyedOnCredit q.stage)
  | keyedOnStrategy (key : Nat) :
      MayFault q (.dispatchKey key) (.keyedOnStrategy q.stage q.strategy)
  | keyedUnready (key : Nat) (name : String) : MayFault q (.dispatchKey key) (.keyedUnready name)
  | tooManyPermits (len : Nat) : MayFault q (.finish len) .sumOverflow
  | overreturned {len : Nat} {f : Fault} (h : q.credit.giveBack len = .error f) :
      MayFault q (.finish len) f

/-- An action ends in no other fault. -/
theorem Moment.mayFault {m : Moment} {f : Fault} (h : m.outcome.result = .error f) :
    m.action.MayFault m.before.queue f := by
  obtain ⟨s, a⟩ := m
  cases a with
  | submit t =>
    have hfault : (s.queue.submit s.now t).result = .error f :=
      Outcome.result_map_eq_error_iff.mp h
    rcases Queue.fault_submit hfault with rfl | rfl
    · exact .unnamed t
    · exact .lateStart t
  | dispatch =>
    obtain ⟨q, hchoose, -⟩ := Session.dispatch_refused h
    exact Queue.fault_choose (congrArg Outcome.result hchoose) ▸ .lateRoll
  | dispatchKey key =>
    obtain ⟨scanned, hchoose, -⟩ := Session.dispatchKey_refused h
    rcases Queue.fault_chooseKey (congrArg Outcome.result hchoose) with rfl | rfl | ⟨name, rfl⟩
    · exact .keyedOnCredit key
    · exact .keyedOnStrategy key
    · exact .keyedUnready key name
  | finish len =>
    have hfault : (s.queue.finish len).result = .error f := Outcome.result_map_eq_error_iff.mp h
    rcases Queue.fault_finish hfault with rfl | hback
    · exact .tooManyPermits len
    · exact .overreturned hback
  | change c => cases h

end TensorDispatch
