import TensorDispatch.Rehearsal

/-!
# How often a worker polls

The poll loop of a worker ends after a number of polls that depends on nothing but the number of its
tasks.

* `Worker.Turned` — what a turn can do: take a task, report the oldest one in flight, or wait;
* `Worker.work_of_turn` — the poll loop goes on with the turns that go on;
* `Worker.exists_finishBeyond`, `Worker.exists_work_of_invariant` — an invariant under which a report
  is accepted, or a turn goes on, holds when the reports, or the poll loop, come to their end;
* `Worker.pollsAhead` — the most polls that a worker has before it. Every turn makes it smaller
  (`Worker.pollsAhead_turn`);
* `Worker.workWithin` — the poll loop with a bound on its polls. With `pollsAhead` polls it is the
  poll loop (`Worker.workWithin_eq_work`), whether the worker ends with all its tasks or gives up.
-/

namespace TensorDispatch.Rehearsal.Worker

variable {expected depth : Nat} {w w' : Worker}

/-! ### Turns -/

/-- What a turn that goes on can make of a worker. -/
inductive Turned (depth : Nat) (w : Worker) : Worker → Prop
  /-- A task is taken, and the oldest ones beyond the depth are reported. -/
  | took {t : Task} {s s' : Session} {inFlight : List Task}
      (hdispatch : w.session.dispatch = .answered (some t) s)
      (hfinish : finishBeyond depth s (w.inFlight ++ [t]) = .ok (s', inFlight)) :
      Turned depth w { session := s', inFlight, emitted := w.emitted.push t, idle := 0 }
  /-- No task leaves, and the oldest one in flight is reported. -/
  | reported {t : Task} {rest : List Task} {s s' : Session}
      (hdispatch : w.session.dispatch = .answered none s) (hflight : w.inFlight = t :: rest)
      (hfinish : settle (s.finish t.len) = .ok s') :
      Turned depth w { w with session := s', inFlight := rest }
  /-- No task leaves and none is in flight, so time moves on. -/
  | waited {s : Session} (hdispatch : w.session.dispatch = .answered none s)
      (hflight : w.inFlight = []) (hidle : w.idle < idleLimit) :
      Turned depth w { w with
        session := { s with clock := advanceMicros tickMicros s.clock }
        idle := w.idle + 1 }

theorem turned_of_turn (h : w.turn depth = .ok w') : w.Turned depth w' := by
  unfold turn at h
  split at h
  · cases h
  · rename_i t s hdispatch
    cases hfinish : finishBeyond depth s (w.inFlight ++ [t]) with
    | error halt =>
      rw [hfinish] at h
      cases h
    | ok p =>
      rw [hfinish] at h
      cases h
      exact .took hdispatch hfinish
  · rename_i s hdispatch
    split at h
    · rename_i t rest hflight
      cases hfinish : settle (s.finish t.len) with
      | error halt =>
        rw [hfinish] at h
        cases h
      | ok s' =>
        rw [hfinish] at h
        cases h
        exact .reported hdispatch hflight hfinish
    · rename_i hflight
      split at h
      · cases h
      · cases h
        exact .waited hdispatch hflight (by omega)

/-- The tasks that stay in flight are the last ones. -/
theorem suffix_of_finishBeyond {s s' : Session} {inFlight inFlight' : List Task}
    (h : finishBeyond depth s inFlight = .ok (s', inFlight')) :
    inFlight' <:+ inFlight ∧ inFlight'.length ≤ depth := by
  induction inFlight generalizing s with
  | nil =>
    cases h
    exact ⟨List.suffix_refl _, Nat.zero_le depth⟩
  | cons t rest ih =>
    rw [finishBeyond] at h
    split at h
    · cases hfinish : settle (s.finish t.len) with
      | error halt =>
        rw [hfinish] at h
        cases h
      | ok s₁ =>
        rw [hfinish] at h
        obtain ⟨hsuffix, hlength⟩ := ih h
        exact ⟨hsuffix.trans (List.suffix_cons t rest), hlength⟩
    · cases h
      exact ⟨List.suffix_refl _, by omega⟩

/-- An invariant under which the oldest task in flight can be reported holds until few enough are
left. -/
theorem exists_finishBeyond {I : Session → List Task → Prop}
    (hfinish : ∀ {s t later}, I s (t :: later) →
      ∃ s', settle (s.finish t.len) = .ok s' ∧ I s' later)
    {s : Session} {inFlight : List Task} (h : I s inFlight) (depth : Nat) :
    ∃ s' inFlight', finishBeyond depth s inFlight = .ok (s', inFlight') ∧
      inFlight'.length ≤ depth ∧ I s' inFlight' := by
  induction inFlight generalizing s with
  | nil => exact ⟨s, [], rfl, Nat.zero_le depth, h⟩
  | cons t later ih =>
    by_cases hdepth : depth < (t :: later).length
    · obtain ⟨s₁, hreport, h₁⟩ := hfinish h
      obtain ⟨s', inFlight', hrest, hlength, h'⟩ := ih h₁
      refine ⟨s', inFlight', ?_, hlength, h'⟩
      rw [finishBeyond, if_pos hdepth, hreport]
      exact hrest
    · refine ⟨s, t :: later, ?_, Nat.le_of_not_lt hdepth, h⟩
      rw [finishBeyond, if_neg hdepth]

/-! ### The poll loop -/

/-- A turn that goes on is part of the work. -/
theorem work_of_turn (hmore : w.emitted.size < expected) (hturn : w.turn depth = .ok w') :
    w.work expected depth = w'.work expected depth := by
  rw [work, dif_pos hmore]
  split
  · rename_i halt herror
    cases herror.symm.trans hturn
  · rename_i w₁ hok
    cases hok.symm.trans hturn
    rfl

theorem work_of_halt {halt : Halt} (hmore : w.emitted.size < expected)
    (hturn : w.turn depth = .error halt) : w.work expected depth = .error halt := by
  rw [work, dif_pos hmore]
  split
  · rename_i halt' herror
    cases herror.symm.trans hturn
    rfl
  · rename_i w₁ hok
    cases hok.symm.trans hturn

theorem work_of_le (hall : ¬ w.emitted.size < expected) : w.work expected depth = .ok w := by
  rw [work, dif_neg hall]

/-- An invariant under which every turn goes on holds once all tasks have been taken. -/
theorem exists_work_of_invariant {I : Worker → Prop}
    (hturn : ∀ {w : Worker}, I w → w.emitted.size < expected →
      ∃ w', w.turn depth = .ok w' ∧ I w') (h : I w) :
    ∃ w', w.work expected depth = .ok w' ∧ I w' ∧ expected ≤ w'.emitted.size := by
  fun_induction work expected depth w with
  | case1 w hmore halt hhalt =>
    obtain ⟨w', hok, -⟩ := hturn h hmore
    cases hhalt.symm.trans hok
  | case2 w hmore w₁ hok hdecreases ih =>
    obtain ⟨w', hok', h'⟩ := hturn h hmore
    cases hok.symm.trans hok'
    exact ih h'
  | case3 w hmore => exact ⟨w, rfl, h, Nat.le_of_not_lt hmore⟩

/-! ### The bound -/

/-- The most polls that a worker has before it. Each task still to be taken costs one poll that
takes it, one that leads to its report, and the idle polls that are tolerated in between; the last
one needs no report, and giving up takes one more idle poll than is tolerated. -/
def pollsAhead (expected : Nat) (w : Worker) : Nat :=
  if w.emitted.size < expected then
    (expected - w.emitted.size - 1) * (idleLimit + 2) + w.inFlight.length +
      (idleLimit + 2 - w.idle)
  else 0

/-- A turn that goes on leaves fewer polls ahead. -/
theorem pollsAhead_turn (hidle : w.idle ≤ idleLimit) (hmore : w.emitted.size < expected)
    (hturn : w.turn depth = .ok w') :
    w'.idle ≤ idleLimit ∧ w'.pollsAhead expected < w.pollsAhead expected := by
  cases turned_of_turn hturn with
  | @took t s s' inFlight _ hfinish =>
    refine ⟨Nat.zero_le idleLimit, ?_⟩
    have hflight := (suffix_of_finishBeyond hfinish).1.length_le
    rw [List.length_append, List.length_singleton] at hflight
    simp only [pollsAhead, Array.size_push, if_pos hmore]
    split
    -- one task fewer is left, and with it the idle polls before the next one
    · obtain ⟨n, hn⟩ : ∃ n, expected - w.emitted.size - 1 = n + 1 :=
        ⟨expected - w.emitted.size - 2, by omega⟩
      have hleft : expected - (w.emitted.size + 1) - 1 = n := by omega
      rw [hn, hleft, Nat.succ_mul]
      omega
    · omega
  | reported _ hflight =>
    refine ⟨hidle, ?_⟩
    simp only [pollsAhead, if_pos hmore, hflight, List.length_cons]
    omega
  | waited _ hflight hless =>
    refine ⟨hless, ?_⟩
    simp only [pollsAhead, if_pos hmore, hflight, List.length_nil]
    omega

/-- The poll loop, for as many polls at most. -/
def workWithin (expected depth : Nat) : Nat → Worker → Option (Except Halt Worker)
  | 0, w => if w.emitted.size < expected then none else some (.ok w)
  | polls + 1, w =>
    if w.emitted.size < expected then
      match w.turn depth with
      | .error halt => some (.error halt)
      | .ok w' => workWithin expected depth polls w'
    else some (.ok w)

/-- With the polls it has before it, a worker comes to the end of the poll loop. -/
theorem workWithin_eq_work (hidle : w.idle ≤ idleLimit) {polls : Nat}
    (hpolls : w.pollsAhead expected ≤ polls) :
    w.workWithin expected depth polls = some (w.work expected depth) := by
  induction polls generalizing w with
  | zero =>
    have hall : ¬ w.emitted.size < expected := by
      intro hmore
      rw [pollsAhead, if_pos hmore] at hpolls
      omega
    rw [workWithin, if_neg hall, work_of_le hall]
  | succ polls ih =>
    by_cases hmore : w.emitted.size < expected
    · rw [workWithin, if_pos hmore]
      cases hturn : w.turn depth with
      | error halt => rw [work_of_halt hmore hturn]
      | ok w' =>
        obtain ⟨hidle', hless⟩ := pollsAhead_turn hidle hmore hturn
        rw [work_of_turn hmore hturn]
        exact ih hidle' (by omega)
    · rw [workWithin, if_neg hmore, work_of_le hmore]

/-- Where the poll loop comes to its end within a bound, it comes to the same end without it. -/
theorem work_of_workWithin {polls : Nat} {result : Except Halt Worker}
    (h : w.workWithin expected depth polls = some result) : w.work expected depth = result := by
  induction polls generalizing w with
  | zero =>
    rw [workWithin] at h
    split at h
    · cases h
    · rename_i hall
      cases h
      exact work_of_le hall
  | succ polls ih =>
    rw [workWithin] at h
    split at h
    · rename_i hmore
      split at h
      · rename_i halt hturn
        cases h
        exact work_of_halt hmore hturn
      · rename_i w' hturn
        rw [work_of_turn hmore hturn]
        exact ih h
    · rename_i hall
      cases h
      exact work_of_le hall

/-- A worker that starts an iteration has at most so many polls before it. -/
theorem pollsAhead_start (expected : Nat) (s : Session) :
    pollsAhead expected { session := s } ≤ (idleLimit + 2) * expected := by
  cases expected with
  | zero => simp [pollsAhead]
  | succ n =>
    have hstart : pollsAhead (n + 1) { session := s } = (idleLimit + 2) * (n + 1) := by
      simp [pollsAhead, Nat.mul_comm _ (n + 1), Nat.succ_mul]
    exact Nat.le_of_eq hstart

end TensorDispatch.Rehearsal.Worker
