import TensorDispatch.Proofs.History
import TensorDispatch.Proofs.Queue.Choice

/-!
# Records decide nothing

What a session keeps on record, its counters, its profiles and the tasks that have left, has no
influence on what it does.

* `Queue.uncounted`, `Session.bare` — a queue without its counters, a session without its records;
* `Session.act_bare` — an action ends alike with any records;
* `Session.views` — what the callers of a session see of a run, its counters aside. Sessions that
  differ in their records alone are seen to do the same (`Session.views_eq_of_bare_eq`).
-/

namespace TensorDispatch

theorem Outcome.within_eq_iff {σ τ α : Type} {embed : σ → τ} {o o' : Outcome σ α} :
    o.within embed = o'.within embed ↔ o.result = o'.result ∧ embed o.state = embed o'.state := by
  simp [within]

/-! ### Queues -/

/-- A poll reads no counter. -/
theorem Throttle.poll_recounted (admits : Task → Bool) (now : Int) (w : Throttle)
    (stats stats' : Stats) :
    (w.poll admits now stats).within Prod.fst = (w.poll admits now stats').within Prod.fst := by
  unfold poll
  split
  · rfl
  · split
    · split <;> rfl
    · rfl

namespace Queue

/-- The queue without its counters. -/
def uncounted (q : Queue) : Queue := { q with stats := {} }

variable (q : Queue) (stats : Stats)

theorem submit_recounted (now : Int) (t : Task) :
    (submit now t { q with stats }).within uncounted = (q.submit now t).within uncounted := by
  have hplace : (place now t { q with stats := stats.countSubmitted }).within uncounted =
      (place now t { q with stats := q.stats.countSubmitted }).within uncounted := by
    simp only [place]
    split
    · split <;> rfl
    · rfl
  obtain ⟨hresult, hstate⟩ := Outcome.within_eq_iff.mp hplace
  simp only [submit]
  split
  · rfl
  · rcases h : place now t { q with stats := stats.countSubmitted } with ⟨result, q₁⟩
    rcases h' : place now t { q with stats := q.stats.countSubmitted } with ⟨result', q₂⟩
    rw [h, h'] at hresult hstate
    cases hresult
    cases result with
    | error f => exact Outcome.within_eq_iff.mpr ⟨rfl, hstate⟩
    | ok u => exact Outcome.within_eq_iff.mpr ⟨rfl, hstate⟩

theorem finish_recounted (len : Nat) :
    (finish len { q with stats }).within uncounted = (q.finish len).within uncounted := by
  have hcredit : ∀ stats', (returnCredit len { q with stats := stats' }).within uncounted =
      (q.returnCredit len).within uncounted := by
    intro stats'
    simp only [returnCredit]
    split <;> rfl
  simp only [finish]
  split
  · split
    · split <;> rfl
    · exact (hcredit _).trans (hcredit _).symm
  · exact (hcredit _).trans (hcredit _).symm

theorem eq_recounted_of_uncounted_eq {q q' : Queue} (h : q.uncounted = q'.uncounted) :
    q = { q' with stats := q.stats } := by
  cases q
  cases q'
  simpa [uncounted] using h

theorem chooseScanned_recounted (readiness : Readiness) :
    (chooseScanned readiness { q with stats }).1 = (q.chooseScanned readiness).1 ∧
      (chooseScanned readiness { q with stats }).2.uncounted =
        (q.chooseScanned readiness).2.uncounted := by
  have hadmits : admits readiness { q with stats } = q.admits readiness := rfl
  simp only [chooseScanned, hadmits]
  split
  · exact ⟨rfl, rfl⟩
  · exact ⟨rfl, rfl⟩

theorem choose_recounted (readiness : Readiness) (now : Int) :
    (choose readiness now { q with stats }).within uncounted =
      (q.choose readiness now).within uncounted := by
  have hadmits : admits readiness { q with stats } = q.admits readiness := rfl
  have hgradient : (chooseGradient readiness now { q with stats }).within uncounted =
      (q.chooseGradient readiness now).within uncounted := by
    simp only [chooseGradient, hadmits]
    split
    · rfl
    · simp only [Replay.poll_eq]
      rfl
    · rename_i w hpolicy
      exact congrArg (Outcome.within fun w => { q with policy := .throttle w, stats := {} })
        (w.poll_recounted (q.admits readiness) now stats q.stats)
  obtain ⟨hresult, hstate⟩ := Outcome.within_eq_iff.mp hgradient
  unfold choose
  rcases h : chooseGradient readiness now { q with stats } with ⟨result, q₁⟩
  rcases h' : q.chooseGradient readiness now with ⟨result', q₂⟩
  rw [h, h'] at hresult hstate
  cases hresult
  rcases result with f | _ | t
  · exact Outcome.within_eq_iff.mpr ⟨rfl, hstate⟩
  -- without a gradient the scanned tasks have their turn
  · have hq : q₁ = { q₂ with stats := q₁.stats } := eq_recounted_of_uncounted_eq hstate
    rw [hq]
    exact Outcome.within_eq_iff.mpr
      ⟨congrArg Except.ok (q₂.chooseScanned_recounted _ readiness).1,
        (q₂.chooseScanned_recounted _ readiness).2⟩
  · exact Outcome.within_eq_iff.mpr ⟨rfl, hstate⟩

theorem chooseKey_recounted (readiness : Readiness) (key : Nat) :
    (chooseKey readiness key { q with stats }).within uncounted =
      (q.chooseKey readiness key).within uncounted := by
  simp only [chooseKey]
  split
  · rfl
  · split
    · rfl
    · split
      · rfl
      · split <;> rfl

end Queue

/-! ### Sessions -/

namespace Session

/-- The session without its records. -/
def bare (s : Session) : Session :=
  { s with queue := s.queue.uncounted, profiles := [], released := #[] }

variable {s s' : Session}

theorem exists_of_bare_eq (h : s.bare = s'.bare) :
    ∃ stats profiles released,
      s = { s' with queue := { s'.queue with stats }, profiles, released } := by
  obtain ⟨queue, readiness, profiles, clock, wallClock, released⟩ := s
  simp only [bare, mk.injEq] at h
  obtain ⟨hqueue, rfl, -, rfl, rfl, -⟩ := h
  exact ⟨queue.stats, profiles, released, by rw [← Queue.eq_recounted_of_uncounted_eq hqueue]⟩

/-- Handing a task over reads no records. -/
theorem handOver_bare (h : s.bare = s'.bare) (t : Task) :
    (handOver t s).within bare = (handOver t s').within bare := by
  obtain ⟨stats, profiles, released, rfl⟩ := exists_of_bare_eq h
  simp only [handOver, Queue.release]
  cases s'.queue.credit.acquire t.len <;> rfl

theorem dispatch_bare (h : s.bare = s'.bare) :
    s.dispatch.within bare = s'.dispatch.within bare := by
  obtain ⟨stats, profiles, released, rfl⟩ := exists_of_bare_eq h
  obtain ⟨hresult, hstate⟩ :=
    Outcome.within_eq_iff.mp (s'.queue.choose_recounted stats s'.readiness s'.now)
  have hbare : ∀ {q₁ q₂ : Queue} (readiness : Readiness), q₁.uncounted = q₂.uncounted →
      bare { s' with queue := q₁, readiness, profiles, released } =
        bare { s' with queue := q₂, readiness } := by
    intro q₁ q₂ readiness hq
    simp only [bare, hq]
  simp only [dispatch]
  rcases hchoose : Queue.choose s'.readiness s'.now { s'.queue with stats } with ⟨result, q₁⟩
  rcases hchoose' : s'.queue.choose s'.readiness s'.now with ⟨result', q₂⟩
  rw [hchoose, hchoose'] at hresult hstate
  cases hresult
  simp only [now] at hchoose ⊢
  rw [hchoose]
  rcases result with f | _ | t
  · exact Outcome.within_eq_iff.mpr ⟨rfl, hbare _ hstate⟩
  · exact Outcome.within_eq_iff.mpr ⟨rfl, hbare _ hstate⟩
  · have hgated : q₁.uncounted.gated = q₂.uncounted.gated := congrArg Queue.gated hstate
    have hgated : q₁.gated = q₂.gated := hgated
    simp only [hgated]
    exact handOver_bare (hbare _ hstate) t

theorem dispatchKey_bare (h : s.bare = s'.bare) (key : Nat) :
    (s.dispatchKey key).within bare = (s'.dispatchKey key).within bare := by
  obtain ⟨stats, profiles, released, rfl⟩ := exists_of_bare_eq h
  obtain ⟨hresult, hstate⟩ :=
    Outcome.within_eq_iff.mp (s'.queue.chooseKey_recounted stats s'.readiness key)
  have hbare : ∀ {q₁ q₂ : Queue}, q₁.uncounted = q₂.uncounted →
      bare { s' with queue := q₁, profiles, released } = bare { s' with queue := q₂ } := by
    intro q₁ q₂ hq
    simp only [bare, hq]
  simp only [dispatchKey]
  rcases hchoose : Queue.chooseKey s'.readiness key { s'.queue with stats } with ⟨result, q₁⟩
  rcases hchoose' : s'.queue.chooseKey s'.readiness key with ⟨result', q₂⟩
  rw [hchoose, hchoose'] at hresult hstate
  cases hresult
  rcases result with f | _ | t
  · exact Outcome.within_eq_iff.mpr ⟨rfl, hbare hstate⟩
  · exact Outcome.within_eq_iff.mpr ⟨rfl, hbare hstate⟩
  · exact handOver_bare (hbare hstate) t

/-- An action ends alike with any records. -/
theorem act_bare (h : s.bare = s'.bare) (a : Action) :
    (s.act a).within bare = (s'.act a).within bare := by
  cases a with
  | submit t =>
    obtain ⟨stats, profiles, released, rfl⟩ := exists_of_bare_eq h
    obtain ⟨hresult, hstate⟩ :=
      Outcome.within_eq_iff.mp (s'.queue.submit_recounted stats s'.now t)
    refine Outcome.within_eq_iff.mpr ⟨?_, ?_⟩
    · exact congrArg (Except.map _) hresult
    · exact congrArg (fun queue => { s' with queue, profiles := [], released := #[] }) hstate
  | dispatch => exact dispatch_bare h
  | dispatchKey key => exact dispatchKey_bare h key
  | finish len =>
    obtain ⟨stats, profiles, released, rfl⟩ := exists_of_bare_eq h
    obtain ⟨hresult, hstate⟩ := Outcome.within_eq_iff.mp (s'.queue.finish_recounted stats len)
    refine Outcome.within_eq_iff.mpr ⟨?_, ?_⟩
    · exact congrArg (Except.map _) hresult
    · exact congrArg (fun queue => { s' with queue, profiles := [], released := #[] }) hstate
  | change c =>
    obtain ⟨stats, profiles, released, rfl⟩ := exists_of_bare_eq h
    cases c with
    | contribute key =>
      cases htable : s'.readiness.table <;> simp [act, apply, step, htable] <;> rfl
    | _ => rfl

end Session

/-! ### What callers see -/

/-- What the callers of a session see of a moment: its answer, and the queue behind it without its
counters. -/
def Moment.view (m : Moment) : Except Fault (Option Task) × Snapshot :=
  (m.outcome.result, m.after.queue.uncounted.snapshot)

namespace Session

variable {s s' : Session}

/-- What the callers of a session see of a run. -/
def views (s : Session) (actions : List Action) : List (Except Fault (Option Task) × Snapshot) :=
  (s.history actions).map Moment.view

/-- Sessions that differ in their records alone are seen to do the same. -/
theorem views_eq_of_bare_eq (h : s.bare = s'.bare) (actions : List Action) :
    s.views actions = s'.views actions := by
  induction actions generalizing s s' with
  | nil => rfl
  | cons a actions ih =>
    obtain ⟨hresult, hstate⟩ := Outcome.within_eq_iff.mp (act_bare h a)
    have hqueue : (s.act a).state.queue.uncounted = (s'.act a).state.queue.uncounted :=
      congrArg Session.queue hstate
    have hview : Moment.view ⟨s, a⟩ = Moment.view ⟨s', a⟩ := by
      simp only [Moment.view, Moment.after, Moment.outcome, hresult, hqueue]
    simp only [views, history, List.map_cons, hview]
    exact congrArg _ (ih hstate)

end Session

end TensorDispatch
