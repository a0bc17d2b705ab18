import TensorDispatch.Proofs.Rehearsal.Polls
import TensorDispatch.Proofs.Replay.Fresh
import TensorDispatch.Proofs.Replay.Line

/-!
# Workers on a line of tensors

A worker whose queue replays a schedule takes the partitions of a line of tensors one after the
other.

* `Session.Rehearses` — sessions in which nothing beside the replay holds a task back, with one
  lemma for each operation of a worker;
* `Worker.OnLine` — the invariant of the poll loop. Behind a closed door there is always a task in
  flight whose completion opens it, so a worker never idles. `Worker.OnLine.turn` is the step, and
  `Worker.exists_work` the whole loop;
* `Worker.exists_first_turn` — the first poll of an iteration lets a complete pass roll over.
-/

namespace TensorDispatch

open Rehearsal (settle)

/-! ### Sessions of a rehearsal -/

/-- A task that waits for no flag is handed over as it is. -/
theorem Task.released_of_unflagged {t : Task} (h : t.flag = none) : t.released = t := by
  rw [released, ← h]

@[simp] theorem Replay.staged_completed (r : Replay) : r.completed.staged = r.staged := by
  unfold completed
  split
  · split <;> rfl
  · rfl

/-- A poll in the middle of a pass changes none of these counters. -/
theorem Replay.statsAfterPoll_kept {r : Replay} (h : ¬ r.RollsOver) (stats : Stats) :
    let stats' := r.statsAfterPoll stats
    stats'.submitted = stats.submitted ∧ stats'.dispatched = stats.dispatched ∧
      stats'.finished = stats.finished ∧ stats'.iterations = stats.iterations := by
  simp only [statsAfterPoll, if_neg h]
  split <;> exact ⟨rfl, rfl, rfl, rfl⟩

namespace Session

/-- The queue of a session replays a schedule, and nothing beside the replay holds a task back. -/
structure Rehearses (s : Session) (r : Replay) : Prop where
  policy : s.queue.policy = .replay r
  scanned : s.queue.scanned.tasks = []
  credit : s.queue.credit = .unmetered
  readiness : s.readiness = {}

namespace Rehearses

variable {s : Session} {r : Replay}

/-- A task that waits for no flag is admitted. -/
theorem admits (h : s.Rehearses r) {t : Task} (hflag : t.flag = none) :
    s.queue.admits s.readiness t = true := by
  simp [Queue.admits, Readiness.isReady, Readiness.isKeyReady, h.readiness, h.credit, hflag,
    Credit.admits]

/-- With an empty staging buffer, nothing leaves. -/
theorem dispatch_none (h : s.Rehearses r) (hempty : r.rolled.refilled.staged = []) :
    ∃ s', s.dispatch = .answered none s' ∧ s'.Rehearses r.rolled.refilled ∧
      s'.queue.stats = r.statsAfterPoll s.queue.stats := by
  have hchoose : s.queue.choose s.readiness s.now = .answered none
      { s.queue with
        policy := .replay r.rolled.refilled
        stats := r.statsAfterPoll s.queue.stats } := by
    simp [Queue.choose, Queue.chooseGradient, h.policy, Replay.poll_eq, Replay.releaseStaged,
      hempty, Queue.chooseScanned, Pending.takeFirst?, h.scanned, Outcome.answered]
  refine ⟨_, by rw [dispatch, hchoose]; rfl, ?_, rfl⟩
  exact { h with policy := rfl }

/-- The front of the staging buffer leaves. -/
theorem dispatch_some (h : s.Rehearses r) {t : Task} {later : List Task}
    (hstaged : r.rolled.refilled.staged = t :: later) (hflag : t.flag = none) :
    ∃ s', s.dispatch = .answered (some t) s' ∧
      s'.Rehearses { r.rolled.refilled with staged := later } ∧
      s'.queue.stats = (r.statsAfterPoll s.queue.stats).countDispatched := by
  have hchoose : s.queue.choose s.readiness s.now = .answered (some t)
      { s.queue with
        policy := .replay { r.rolled.refilled with staged := later }
        stats := r.statsAfterPoll s.queue.stats } := by
    simp [Queue.choose, Queue.chooseGradient, h.policy, Replay.poll_eq, Replay.releaseStaged,
      hstaged, h.admits hflag, Outcome.answered]
  have hreleased := Task.released_of_unflagged hflag
  have hreadiness : (if s.queue.gated then s.readiness.acknowledge t.key else s.readiness) =
      ({} : Readiness) := by
    rw [h.readiness]
    split <;> rfl
  have hdispatch : s.dispatch = handOver t
      { s with
        queue :=
          { s.queue with
            policy := .replay { r.rolled.refilled with staged := later }
            stats := r.statsAfterPoll s.queue.stats }
        readiness := {} } := by
    rw [dispatch, hchoose]
    simp only [Outcome.answered, hreadiness]
  rw [hdispatch]
  simp only [handOver, Queue.release, h.credit, Credit.acquire, Outcome.answered, hreleased]
  exact ⟨_, rfl, ⟨rfl, h.scanned, rfl, rfl⟩, rfl⟩

/-- A completion is not refused where the door grants its permit. -/
theorem finish (h : s.Rehearses r) {permits : Nat} (hgrant : r.grantPermit = .ok permits)
    (len : Nat) :
    ∃ s', settle (s.finish len) = .ok s' ∧ s'.Rehearses r.completed ∧
      s'.queue.stats = s.queue.stats.countFinished := by
  have hfinish : s.queue.finish len = .answered ()
      { s.queue with policy := .replay r.completed, stats := s.queue.stats.countFinished } := by
    cases hseen : r.boundarySeen with
    | true => simp [Queue.finish, h.policy, hseen, hgrant, Replay.completed]
    | false =>
      simp [Queue.finish, h.policy, hseen, Replay.completed, Queue.returnCredit, h.credit,
        Credit.giveBack]
  rw [Session.finish, hfinish]
  exact ⟨_, rfl, { h with policy := rfl }, rfl⟩

/-- A gradient with a name joins the pending ones, and is counted. -/
theorem submit (h : s.Rehearses r) {t : Task} (hname : t.name.isEmpty = false)
    (hgradient : t.isGradient = true) :
    ∃ s' n, settle (s.submit t) = .ok s' ∧ s'.Rehearses (r.submit t) ∧
      s'.queue.stats = s.queue.stats.countSubmitted.notePending n := by
  obtain ⟨n, hsubmit⟩ := Queue.submit_named_replay h.policy s.now hname
  obtain ⟨profiles, hsubmit⟩ := submit_of_answered hsubmit
  rw [hsubmit]
  simp only [hgradient, if_true]
  exact ⟨_, n, rfl, { h with policy := rfl }, rfl⟩

/-- Tasks of distinct keys wait in their order once all of them are submitted. -/
theorem submitAll (h : s.Rehearses r) (hordered : r.pending.ordered = true)
    (hsorted : r.pending.tasks.Pairwise Task.Before) {tasks : List Task}
    (hgradients : ∀ t ∈ tasks, t.name.isEmpty = false ∧ t.isGradient = true)
    (hkeys : (r.pending.tasks ++ tasks).Pairwise fun t u => t.key ≠ u.key) :
    ∃ s' pending, Rehearsal.submitAll s tasks = .ok s' ∧ s'.Rehearses { r with pending } ∧
      pending.ordered = true ∧ pending.tasks.Pairwise Task.Before ∧
      pending.tasks.Perm (r.pending.tasks ++ tasks) ∧
      ∃ peakPending, s'.queue.stats =
        { s.queue.stats with
          submitted := s.queue.stats.submitted + tasks.length
          peakPending } := by
  induction tasks generalizing s r with
  | nil =>
    refine ⟨s, r.pending, rfl, h, hordered, hsorted, ?_, _, rfl⟩
    rw [List.append_nil]
  | cons t tasks ih =>
    obtain ⟨hname, hgradient⟩ := hgradients t List.mem_cons_self
    obtain ⟨s₁, n, hsubmit, h₁, hstats₁⟩ := h.submit hname hgradient
    have hplace : (r.submit t).pending.tasks = Pending.place t r.pending.tasks := by
      simp [Replay.submit, Pending.insert, hordered]
    have hperm : ((r.submit t).pending.tasks ++ tasks).Perm (r.pending.tasks ++ t :: tasks) := by
      rw [hplace]
      exact ((Pending.perm_place t _).append_right tasks).trans List.perm_middle.symm
    have hnew : ∀ u ∈ r.pending.tasks, u.key ≠ t.key := fun u hu =>
      (List.pairwise_append.mp hkeys).2.2 u hu t List.mem_cons_self
    obtain ⟨s', pending, hrest, h', hordered', hsorted', hperm', peak, hstats'⟩ :=
      ih h₁ hordered (by rw [hplace]; exact Pending.pairwise_place hsorted hnew)
        (fun u hu => hgradients u (List.mem_cons_of_mem t hu))
        (hperm.symm.pairwise hkeys fun hne => hne.symm)
    refine ⟨s', pending, ?_, h', hordered', hsorted', hperm'.trans hperm, peak, ?_⟩
    · rw [Rehearsal.submitAll, List.foldlM_cons, hsubmit]
      exact hrest
    · rw [hstats', hstats₁, List.length_cons]
      simp only [Stats.countSubmitted, Stats.notePending, Nat.add_assoc, Nat.add_comm 1]

end Rehearses

end Session

/-! ### Workers -/

namespace Rehearsal.Worker

/-- A worker in the middle of an iteration over a line of tensors: what it has taken, what is
staged and what still waits make up the line, in its order. -/
structure OnLine (fillers : List Int) (line : List Tensor) (iterations : Nat) (w : Worker)
    (r : Replay) (consumed rest : List Tensor) : Prop where
  rehearses : w.session.Rehearses r
  follows : r.Follows fillers consumed rest
  splits : consumed ++ rest = line
  taken : w.emitted.toList ++ (r.staged ++ Tensor.partsOf rest) = Tensor.partsOf line
  /-- A closed door waits for a completion that is still to come. -/
  closed : r.permits = 0 → w.inFlight ≠ []
  submitted : w.session.queue.stats.submitted =
    w.session.queue.stats.dispatched + (r.staged ++ Tensor.partsOf rest).length
  dispatched : w.session.queue.stats.dispatched =
    w.session.queue.stats.finished + w.inFlight.length
  iterations : w.session.queue.stats.iterations = iterations

namespace OnLine

variable {fillers : List Int} {line : List Tensor} {iterations : Nat} {w : Worker} {r : Replay}
  {consumed rest : List Tensor}

/-- When a pass over a line starts, a worker has taken nothing of it. -/
theorem start {s : Session} (h : s.Rehearses r) (hfollows : r.Follows fillers [] line)
    (hempty : r.staged = []) (hopen : 0 < r.permits)
    (hsubmitted : s.queue.stats.submitted =
      s.queue.stats.dispatched + (Tensor.partsOf line).length)
    (hdispatched : s.queue.stats.dispatched = s.queue.stats.finished) :
    OnLine fillers line s.queue.stats.iterations { session := s } r [] line where
  rehearses := h
  follows := hfollows
  splits := rfl
  taken := by simp [hempty]
  closed := fun hzero => absurd hzero (Nat.ne_of_gt hopen)
  submitted := by simpa [hempty] using hsubmitted
  dispatched := hdispatched
  iterations := rfl

/-- What is still to come is what has not been taken. -/
theorem length_eq (h : OnLine fillers line iterations w r consumed rest) :
    w.emitted.size + (r.staged ++ Tensor.partsOf rest).length = (Tensor.partsOf line).length := by
  have hlength := congrArg List.length h.taken
  rw [List.length_append, Array.length_toList] at hlength
  exact hlength

/-- No partition of a line waits for a flag. -/
theorem unflagged (h : OnLine fillers line iterations w r consumed rest) {t : Task}
    (ht : t ∈ r.staged ++ Tensor.partsOf rest) : t.flag = none := by
  have hline : t ∈ Tensor.partsOf line := h.taken ▸ List.mem_append_right _ ht
  obtain ⟨x, -, hx⟩ := List.mem_flatMap.mp hline
  exact x.unflagged t hx

/-- The oldest task in flight can be reported finished. -/
theorem finish (h : OnLine fillers line iterations w r consumed rest) {t : Task}
    {later : List Task} (hflight : w.inFlight = t :: later) :
    ∃ s', settle (w.session.finish t.len) = .ok s' ∧
      OnLine fillers line iterations { w with session := s', inFlight := later } r.completed
        consumed rest := by
  obtain ⟨hfollows, hopen⟩ := h.follows.completed
  obtain ⟨permits, hgrant, -⟩ := h.follows.exists_grantPermit
  obtain ⟨s', hfinish, hrehearses, hstats⟩ := h.rehearses.finish hgrant t.len
  have hdispatched := h.dispatched
  rw [hflight, List.length_cons] at hdispatched
  refine ⟨s', hfinish, {
    rehearses := hrehearses
    follows := hfollows
    splits := h.splits
    taken := by rw [Replay.staged_completed]; exact h.taken
    closed := fun hzero => absurd hzero (Nat.ne_of_gt hopen)
    submitted := by rw [hstats, Replay.staged_completed]; exact h.submitted
    dispatched := ?_
    iterations := by rw [hstats]; exact h.iterations }⟩
  rw [hstats]
  simp only [Stats.countFinished]
  omega

/-- Tasks in flight can be reported finished until few enough are left. -/
theorem finishBeyond (h : OnLine fillers line iterations w r consumed rest) (depth : Nat) :
    ∃ s' inFlight r', finishBeyond depth w.session w.inFlight = .ok (s', inFlight) ∧
      inFlight.length ≤ depth ∧
      OnLine fillers line iterations { w with session := s', inFlight } r' consumed rest := by
  obtain ⟨s', inFlight, hfinish, hlength, r', h'⟩ := exists_finishBeyond
    (I := fun s' inFlight => ∃ r',
      OnLine fillers line iterations { w with session := s', inFlight } r' consumed rest)
    (by
      rintro s t later ⟨_, h⟩
      obtain ⟨s', hfinish, h'⟩ := h.finish rfl
      exact ⟨s', hfinish, _, h'⟩) ⟨r, h⟩ depth
  exact ⟨s', inFlight, r', hfinish, hlength, h'⟩

/-- A poll that finds the door closed takes nothing. -/
theorem poll_held (h : OnLine fillers line iterations w r consumed rest)
    (hmore : r.staged ++ Tensor.partsOf rest ≠ []) (hempty : r.staged = [])
    (hrefilled : r.refilled = r) :
    ∃ s', w.session.dispatch = .answered none s' ∧
      OnLine fillers line iterations { w with session := s' } r consumed rest := by
  have hpass := h.follows.not_rollsOver hmore
  have hpolled : r.rolled.refilled = r := by rw [Replay.rolled, if_neg hpass, hrefilled]
  obtain ⟨s', hdispatch, hrehearses, hstats⟩ :=
    h.rehearses.dispatch_none (by rw [hpolled]; exact hempty)
  rw [hpolled] at hrehearses
  obtain ⟨hsubmitted, hdispatched, hfinished, hiterations⟩ :=
    Replay.statsAfterPoll_kept hpass w.session.queue.stats
  exact ⟨s', hdispatch, {
    rehearses := hrehearses
    follows := h.follows
    splits := h.splits
    taken := h.taken
    closed := h.closed
    submitted := by rw [hstats, hsubmitted, hdispatched]; exact h.submitted
    dispatched := by rw [hstats, hdispatched, hfinished]; exact h.dispatched
    iterations := by rw [hstats, hiterations]; exact h.iterations }⟩

/-- A poll that finds the next partition of the line at the front of the buffer takes it. -/
theorem poll_taken (h : OnLine fillers line iterations w r consumed rest)
    (hmore : r.staged ++ Tensor.partsOf rest ≠ []) {consumed' rest' : List Tensor} {t : Task}
    {later : List Task} (hsplits : consumed' ++ rest' = consumed ++ rest)
    (hfollows : r.refilled.Follows fillers consumed' rest')
    (hstaged : r.refilled.staged = t :: later)
    (hsame : r.refilled.staged ++ Tensor.partsOf rest' = r.staged ++ Tensor.partsOf rest) :
    ∃ s', w.session.dispatch = .answered (some t) s' ∧
      OnLine fillers line iterations
        { session := s', inFlight := w.inFlight ++ [t], emitted := w.emitted.push t, idle := 0 }
        { r.refilled with staged := later } consumed' rest' := by
  have hpass := h.follows.not_rollsOver hmore
  have hrolled : r.rolled = r := if_neg hpass
  rw [hstaged, List.cons_append] at hsame
  have hflag : t.flag = none := h.unflagged (hsame ▸ List.mem_cons_self)
  obtain ⟨s', hdispatch, hrehearses, hstats⟩ :=
    h.rehearses.dispatch_some (by rw [hrolled]; exact hstaged) hflag
  rw [hrolled] at hrehearses
  obtain ⟨hsubmitted, hdispatched, hfinished, hiterations⟩ :=
    Replay.statsAfterPoll_kept hpass w.session.queue.stats
  have htaken := h.taken
  have hall := h.submitted
  have hleft := h.dispatched
  rw [← hsame] at htaken hall
  rw [List.length_cons] at hall
  refine ⟨s', hdispatch, {
    rehearses := hrehearses
    follows := hfollows.of_staged later
    splits := hsplits.trans h.splits
    taken := by simpa using htaken
    closed := by simp
    submitted := ?_
    dispatched := ?_
    iterations := by rw [hstats]; exact hiterations.trans h.iterations }⟩
  · rw [hstats]
    simp only [Stats.countDispatched, hsubmitted, hdispatched]
    omega
  · rw [hstats, List.length_append, List.length_singleton]
    simp only [Stats.countDispatched, hdispatched, hfinished]
    omega

/-- Every turn goes on, while there is a partition to come. -/
theorem turn (h : OnLine fillers line iterations w r consumed rest)
    (hmore : w.emitted.size < (Tensor.partsOf line).length) (depth : Nat) :
    ∃ w' r' consumed' rest', w.turn depth = .ok w' ∧
      OnLine fillers line iterations w' r' consumed' rest' := by
  have hlength := h.length_eq
  have hmore : r.staged ++ Tensor.partsOf rest ≠ [] :=
    List.ne_nil_of_length_pos (by omega)
  rcases h.follows.refill hmore with
    ⟨hzero, hempty, hrefilled⟩ | ⟨consumed', rest', hsplits, hfollows, hstaged, hsame⟩
  -- behind the closed door, the oldest task in flight is reported
  · obtain ⟨s₁, hdispatch, h₁⟩ := h.poll_held hmore hempty hrefilled
    obtain ⟨t, later, hflight⟩ := List.exists_cons_of_ne_nil (h.closed hzero)
    obtain ⟨s', hfinish, h'⟩ := h₁.finish hflight
    refine ⟨_, _, _, _, ?_, h'⟩
    simp only [Worker.turn, hdispatch, Outcome.answered, hflight, hfinish]
    rfl
  · obtain ⟨t, later, hcons⟩ := List.exists_cons_of_ne_nil hstaged
    obtain ⟨s₁, hdispatch, h₁⟩ := h.poll_taken hmore hsplits hfollows hcons hsame
    obtain ⟨s', inFlight, r', hfinish, -, h'⟩ := h₁.finishBeyond depth
    refine ⟨_, _, _, _, ?_, h'⟩
    simp only [Worker.turn, hdispatch, Outcome.answered, hfinish]
    rfl

end OnLine

/-- A turn depends on a session only through its next dispatch. -/
theorem turn_congr {depth : Nat} {s s' : Session} (h : s.dispatch = s'.dispatch) :
    turn depth { session := s } = turn depth { session := s' } := by
  simp only [turn, h]

/-- With a whole line waiting, the first turn of a worker starts a pass over it. -/
theorem exists_first_turn {fillers : List Int} {line : List Tensor} {s : Session} {r : Replay}
    (h : s.Rehearses r) (hfollows : r.rolled.Follows fillers [] line) (hempty : r.staged = [])
    (hopen : 0 < r.permits)
    (hsubmitted : s.queue.stats.submitted =
      s.queue.stats.dispatched + (Tensor.partsOf line).length)
    (hdispatched : s.queue.stats.dispatched = s.queue.stats.finished)
    (hmore : 0 < (Tensor.partsOf line).length) (depth : Nat) :
    ∃ w r' consumed rest, turn depth { session := s } = .ok w ∧
      OnLine fillers line
        (if r.RollsOver then s.queue.stats.iterations + 1 else s.queue.stats.iterations)
        w r' consumed rest := by
  by_cases hroll : r.RollsOver
  -- the pass that is complete gives way to the next one
  · have hrolled : r.rolled = r.nextPass := if_pos hroll
    rw [hrolled] at hfollows
    have hnext : ¬ r.nextPass.RollsOver :=
      hfollows.not_rollsOver (List.ne_nil_of_length_pos (by rw [List.length_append]; omega))
    have hstart : OnLine fillers line _ { session := s.inNextPass r } r.nextPass [] line :=
      OnLine.start { h with policy := rfl } hfollows hempty hopen hsubmitted hdispatched
    rw [if_pos hroll, turn_congr (Session.dispatch_inNextPass h.policy hroll hnext)]
    exact hstart.turn hmore depth
  · have hrolled : r.rolled = r := if_neg hroll
    rw [hrolled] at hfollows
    rw [if_neg hroll]
    exact (OnLine.start h hfollows hempty hopen hsubmitted hdispatched).turn hmore depth

/-- A worker takes turns until it has taken every partition of its line. -/
theorem exists_work {fillers : List Int} {line : List Tensor} {iterations : Nat} {w : Worker}
    {r : Replay} {consumed rest : List Tensor}
    (h : OnLine fillers line iterations w r consumed rest) (depth : Nat) :
    ∃ w' r' consumed' rest', w.work (Tensor.partsOf line).length depth = .ok w' ∧
      OnLine fillers line iterations w' r' consumed' rest' ∧
      (Tensor.partsOf line).length ≤ w'.emitted.size := by
  obtain ⟨w', hwork, ⟨r', consumed', rest', h'⟩, hall⟩ := exists_work_of_invariant
    (I := fun w => ∃ r consumed rest, OnLine fillers line iterations w r consumed rest)
    (by
      rintro w ⟨_, _, _, h⟩ hmore
      obtain ⟨w', r', consumed', rest', hturn, h'⟩ := h.turn hmore depth
      exact ⟨w', hturn, r', consumed', rest', h'⟩) ⟨r, consumed, rest, h⟩
  exact ⟨w', r', consumed', rest', hwork, h', hall⟩

/-- A worker that has taken everything has taken the line in its order. -/
theorem OnLine.complete {fillers : List Int} {line : List Tensor} {iterations : Nat} {w : Worker}
    {r : Replay} {consumed rest : List Tensor}
    (h : OnLine fillers line iterations w r consumed rest)
    (hall : (Tensor.partsOf line).length ≤ w.emitted.size) :
    consumed = line ∧ rest = [] ∧ r.staged = [] ∧ w.emitted.toList = Tensor.partsOf line := by
  have hlength := h.length_eq
  obtain ⟨hempty, hparts⟩ : r.staged = [] ∧ Tensor.partsOf rest = [] :=
    List.append_eq_nil_iff.mp (List.eq_nil_of_length_eq_zero (by omega))
  have hrest : rest = [] := Tensor.partsOf_eq_nil_iff.mp hparts
  have hsplits := h.splits
  have htaken := h.taken
  rw [hrest, List.append_nil] at hsplits
  rw [hempty, hparts, List.append_nil, List.append_nil] at htaken
  exact ⟨hsplits, hrest, hempty, htaken⟩

end Rehearsal.Worker

end TensorDispatch
