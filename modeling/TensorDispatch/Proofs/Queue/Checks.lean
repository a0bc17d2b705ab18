import TensorDispatch.Proofs.Queue.Frames

/-!
# Checks that acknowledge at once

A dispatch looks for a task that is admitted, and acknowledges its key once the task has left. It
comes to the same if each check acknowledges the key of the task it lets pass: a search stops at
the first such task, a front that passes leaves, and behind a policy that lets nothing go, no check
has passed when the scanned tasks have their turn.

* `Queue.check` — the check that acknowledges;
* `Queue.takeChecking_eq`, `Replay.pollChecking_eq`, `Throttle.pollChecking_eq` — the places where
  tasks are checked;
* `Session.dispatchChecking_eq` — a dispatch with such checks is a dispatch.
-/

namespace TensorDispatch

namespace Queue

/-- Checks whether a task may leave. The key of a task that passes is acknowledged at once. -/
def check (q : Queue) (t : Task) (readiness : Readiness) : Bool × Readiness :=
  if q.admits readiness t then (true, q.acknowledge t readiness) else (false, readiness)

/-- The first task of a list that passes its check, and the list without it. -/
def takeChecking (q : Queue) : List Task → Readiness → Option (Task × List Task) × Readiness
  | [], readiness => (none, readiness)
  | t :: ts, readiness =>
    match q.check t readiness with
    | (true, readiness) => (some (t, ts), readiness)
    | (false, readiness) =>
      let (found, readiness) := q.takeChecking ts readiness
      (found.map fun (u, us) => (u, t :: us), readiness)

/-- No check before the first that passes acknowledges anything, so what is found is what is
admitted at the start of the search. -/
theorem takeChecking_eq (q : Queue) (ts : List Task) (readiness : Readiness) :
    q.takeChecking ts readiness =
      ((ts.find? (q.admits readiness)).map fun t => (t, ts.eraseP (q.admits readiness)),
        q.acknowledgeAll (ts.find? (q.admits readiness)).toList readiness) := by
  induction ts with
  | nil => rfl
  | cons t ts ih =>
    cases hadmits : q.admits readiness t with
    | true => simp [takeChecking, check, hadmits]
    | false =>
      simp only [takeChecking, check, hadmits, Bool.false_eq_true, if_false, ih, List.find?_cons,
        List.eraseP_cons, cond_false, Option.map_map]
      rfl

end Queue

/-! ### Policies -/

namespace Replay

/-- The front of the staging buffer leaves if it passes its check. -/
def releaseStagedChecking (q : Queue) (r : Replay) (readiness : Readiness) :
    (Option Task × Replay) × Readiness :=
  match r.staged with
  | [] => ((none, r), readiness)
  | t :: ts =>
    match q.check t readiness with
    | (true, readiness) => ((some t, { r with staged := ts }), readiness)
    | (false, readiness) => ((none, r), readiness)

/-- A poll with such a check. -/
def pollChecking (q : Queue) (r : Replay) (stats : Stats) (readiness : Readiness) :
    (Option Task × Replay × Stats) × Readiness :=
  let (r, stats) := r.rollOver stats
  if r.staged.isEmpty then
    match r.stageNext with
    | (.nothingDue, r) => ((none, r, stats), readiness)
    | (.heldBack, r) => ((none, r, stats.countBlock), readiness)
    | (.moved, r) =>
      let ((t, r), readiness) := r.releaseStagedChecking q readiness
      ((t, r, stats), readiness)
  else
    let ((t, r), readiness) := r.releaseStagedChecking q readiness
    ((t, r, stats), readiness)

theorem releaseStagedChecking_eq (q : Queue) (r : Replay) (readiness : Readiness) :
    r.releaseStagedChecking q readiness =
      (r.releaseStaged (q.admits readiness),
        q.acknowledgeAll (r.releaseStaged (q.admits readiness)).1.toList readiness) := by
  cases hstaged : r.staged with
  | nil => simp [releaseStagedChecking, releaseStaged, hstaged]
  | cons t ts =>
    cases hadmits : q.admits readiness t <;>
      simp [releaseStagedChecking, releaseStaged, hstaged, Queue.check, hadmits]

theorem pollChecking_eq (q : Queue) (r : Replay) (stats : Stats) (readiness : Readiness) :
    r.pollChecking q stats readiness =
      (r.poll (q.admits readiness) stats,
        q.acknowledgeAll (r.poll (q.admits readiness) stats).1.toList readiness) := by
  simp only [pollChecking, poll, releaseStagedChecking_eq]
  cases (r.rollOver stats).1.staged.isEmpty with
  | true => rcases (r.rollOver stats).1.stageNext with ⟨_ | _ | _, r'⟩ <;> rfl
  | false => rfl

end Replay

namespace Throttle

/-- The first pending gradient leaves if the window has room for it and it passes its check. -/
def releaseFirstChecking (q : Queue) (w : Throttle) (readiness : Readiness) :
    (Option Task × Throttle) × Readiness :=
  match w.pending.tasks with
  | [] => ((none, w), readiness)
  | t :: ts =>
    if w.hasRoom t.len then
      match q.check t readiness with
      | (true, readiness) =>
        ((some t, { w with
          pending := { w.pending with tasks := ts }
          budget := w.budget - t.len }), readiness)
      | (false, readiness) => ((none, w), readiness)
    else ((none, w), readiness)

/-- A poll with such a check. -/
def pollChecking (q : Queue) (now : Int) (w : Throttle) (stats : Stats) (readiness : Readiness) :
    Outcome (Throttle × Stats) (Option Task) × Readiness :=
  if w.pending.tasks.isEmpty then (.answered none (w, stats), readiness)
  else if w.IsExpired now then
    match w.roll with
    | ⟨.ok (), w⟩ => (.answered none (w, stats.countRoll), readiness)
    | ⟨.error fault, w⟩ => (.refused fault (w, stats), readiness)
  else
    let ((t, w), readiness) := w.releaseFirstChecking q readiness
    (.answered t (w, stats), readiness)

theorem releaseFirstChecking_eq (q : Queue) (w : Throttle) (readiness : Readiness) :
    w.releaseFirstChecking q readiness =
      (w.releaseFirst (q.admits readiness),
        q.acknowledgeAll (w.releaseFirst (q.admits readiness)).1.toList readiness) := by
  cases htasks : w.pending.tasks with
  | nil => simp [releaseFirstChecking, releaseFirst, htasks]
  | cons t ts =>
    cases hroom : w.hasRoom t.len <;> cases hadmits : q.admits readiness t <;>
      simp [releaseFirstChecking, releaseFirst, htasks, hroom, Queue.check, hadmits]

theorem pollChecking_eq (q : Queue) (now : Int) (w : Throttle) (stats : Stats)
    (readiness : Readiness) :
    w.pollChecking q now stats readiness =
      (w.poll (q.admits readiness) now stats,
        q.acknowledgeAll (w.poll (q.admits readiness) now stats).taken readiness) := by
  simp only [pollChecking, poll, releaseFirstChecking_eq]
  split
  · rfl
  · split
    · rcases w.roll with ⟨_ | _, w'⟩ <;> rfl
    · rfl

end Throttle

/-! ### Dispatches -/

namespace Queue

/-- The gradient that the policy lets go, with checks that acknowledge at once. -/
def chooseGradientChecking (now : Int) (q : Queue) (readiness : Readiness) :
    Outcome Queue (Option Task) × Readiness :=
  match q.policy with
  | .plain => (.answered none q, readiness)
  | .replay r =>
    let ((t, r, stats), readiness) := r.pollChecking q q.stats readiness
    (.answered t { q with policy := .replay r, stats }, readiness)
  | .throttle w =>
    let (o, readiness) := w.pollChecking q now q.stats readiness
    (o.within fun (w, stats) => { q with policy := .throttle w, stats }, readiness)

/-- The first scanned task that passes its check. -/
def chooseScannedChecking (q : Queue) (readiness : Readiness) : (Option Task × Queue) × Readiness :=
  match q.takeChecking q.scanned.tasks readiness with
  | (none, readiness) => ((none, q), readiness)
  | (some (t, tasks), readiness) =>
    ((some t, { q with scanned := { q.scanned with tasks } }), readiness)

/-- Takes out the task that leaves next, with checks that acknowledge at once. -/
def chooseChecking (now : Int) (q : Queue) (readiness : Readiness) :
    Outcome Queue (Option Task) × Readiness :=
  match q.chooseGradientChecking now readiness with
  | (⟨.ok none, q⟩, readiness) =>
    let ((t, q), readiness) := q.chooseScannedChecking readiness
    (.answered t q, readiness)
  | other => other

theorem chooseGradientChecking_eq (now : Int) (q : Queue) (readiness : Readiness) :
    q.chooseGradientChecking now readiness =
      (q.chooseGradient readiness now,
        q.acknowledgeAll (q.chooseGradient readiness now).taken readiness) := by
  cases hpolicy : q.policy with
  | plain =>
    simp only [chooseGradientChecking, chooseGradient, hpolicy]
    rfl
  | replay r =>
    simp only [chooseGradientChecking, chooseGradient, hpolicy, Replay.pollChecking_eq]
    rfl
  | throttle w =>
    simp only [chooseGradientChecking, chooseGradient, hpolicy, Throttle.pollChecking_eq]
    rfl

theorem chooseScannedChecking_eq (q : Queue) (readiness : Readiness) :
    q.chooseScannedChecking readiness =
      (q.chooseScanned readiness,
        q.acknowledgeAll (q.chooseScanned readiness).1.toList readiness) := by
  rw [chooseScannedChecking, takeChecking_eq, chooseScanned, Pending.takeFirst?]
  cases q.scanned.tasks.find? (q.admits readiness) <;> rfl

theorem chooseChecking_eq (now : Int) (q : Queue) (readiness : Readiness) :
    q.chooseChecking now readiness =
      (q.choose readiness now, q.acknowledgeAll (q.choose readiness now).taken readiness) := by
  have hgradient := q.chooseGradient_spec readiness now
  rw [chooseChecking, chooseGradientChecking_eq, choose]
  rcases hchoose : q.chooseGradient readiness now with ⟨f | _ | t, q'⟩
  · rfl
  -- no check has passed so far, and the one of the scanned tasks is the same
  · rw [hchoose] at hgradient
    obtain ⟨⟨policy, stats, rfl, -⟩, -⟩ := hgradient
    simp only [Outcome.taken, Option.toList_none, acknowledgeAll_nil, chooseScannedChecking_eq]
    rfl
  · rfl

end Queue

namespace Session

/-- Takes the task that may run next, with checks that acknowledge at once. -/
def dispatchChecking (s : Session) : Outcome Session (Option Task) :=
  let (o, readiness) := s.queue.chooseChecking s.now s.readiness
  match o with
  | ⟨.ok none, queue⟩ => .answered none { s with queue, readiness }
  | ⟨.ok (some t), queue⟩ => handOver t { s with queue, readiness }
  | ⟨.error fault, queue⟩ => .refused fault { s with queue, readiness }

/-- It makes no difference whether a check acknowledges at once: the task that passes leaves. -/
theorem dispatchChecking_eq (s : Session) : s.dispatchChecking = s.dispatch := by
  have hsetup := s.queue.setup_choose s.readiness s.now
  rw [dispatchChecking, Queue.chooseChecking_eq, dispatch]
  rcases hchoose : s.queue.choose s.readiness s.now with ⟨f | _ | t, q⟩
  · rfl
  · rfl
  · rw [hchoose] at hsetup
    have hgated : q.gated = s.queue.gated := Queue.gated_eq_of_setup hsetup
    simp only [Outcome.taken, Option.toList_some, Queue.acknowledgeAll_singleton, Queue.acknowledge,
      hgated]

end Session

end TensorDispatch
