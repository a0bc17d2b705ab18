import Mathlib.Data.List.Nodup
import TensorDispatch.Proofs.Queue.Scan
import TensorDispatch.Proofs.Rehearsal.Iterations

/-!
# Rehearsals on credit

A worker whose queue is metered reports what it holds in flight, and so covers the tasks that wait.
It stalls only if no report could cover them.

* `Task.byRank` — tasks by descending priority, and by ascending key within a priority;
* `Session.OnCredit` — sessions in which nothing but credit holds a task back, with one lemma for
  each operation of a worker;
* `Worker.Covers` — the invariant of the poll loop: the bytes in flight are those of the tasks that
  the worker still has to report, so there is one wherever the task in front is not covered.
  `Worker.Covers.turn` is the step, and `Worker.exists_work_of_covers` the whole loop;
* `Worker.work_of_uncovered` — beyond the budget, a worker waits until it gives up;
* `run_by_rank_or_stalls` — whether a whole rehearsal reports, and in which order it emits.
-/

namespace TensorDispatch

open scoped List
open Rehearsal (settle)

/-! ### Ranks -/

namespace Task

/-- Tasks by descending priority, and by ascending key within a priority. -/
def byRank (tasks : List Task) : List Task := tasks.mergeSort fun t u => !decide (u.Before t)

theorem byRank_perm (tasks : List Task) : byRank tasks ~ tasks := List.mergeSort_perm _ _

theorem pairwise_byRank (tasks : List Task) :
    (byRank tasks).Pairwise fun t u => ¬ u.Before t := by
  have hsorted : (byRank tasks).Pairwise fun t u => (!decide (u.Before t)) = true := by
    refine List.pairwise_mergeSort (fun t u v htu huv => ?_) (fun t u => ?_) tasks
    · rw [Bool.not_eq_true', decide_eq_false_iff_not] at htu huv ⊢
      unfold Before at htu huv ⊢
      omega
    · rw [Bool.or_eq_true, Bool.not_eq_true', Bool.not_eq_true', decide_eq_false_iff_not,
        decide_eq_false_iff_not]
      unfold Before
      omega
  simpa using hsorted

variable {ts us : List Task}

/-- In whatever order tasks are sorted by rank, their ranks come in one order. -/
theorem map_rank_eq (hperm : ts ~ us) (hts : ts.Pairwise fun t u => ¬ u.Before t)
    (hus : us.Pairwise fun t u => ¬ u.Before t) : ts.map rank = us.map rank := by
  have hranks : ∀ {xs : List Task}, (xs.Pairwise fun t u => ¬ u.Before t) →
      (xs.map rank).Pairwise fun r r' => r'.1 < r.1 ∨ r.1 = r'.1 ∧ r.2 ≤ r'.2 := by
    intro xs hxs
    refine List.pairwise_map.mpr (hxs.imp fun hbefore => ?_)
    simp only [rank, Before] at hbefore ⊢
    omega
  refine List.Perm.eq_of_pairwise ?_ (hranks hts) (hranks hus) (hperm.map rank)
  intro r r' _ _ h h'
  exact Prod.ext (by omega) (by omega)

/-- Tasks of distinct keys are sorted by rank in one way. -/
theorem eq_of_nodup_keys (hperm : ts ~ us) (hts : ts.Pairwise fun t u => ¬ u.Before t)
    (hus : us.Pairwise fun t u => ¬ u.Before t) (hkeys : (us.map key).Nodup) : ts = us := by
  refine List.Perm.eq_of_pairwise (fun t u ht hu htu hut => ?_) hts hus hperm
  by_contra hne
  have hkey : t.key ≠ u.key := fun heq =>
    hne (List.inj_on_of_nodup_map hkeys (hperm.mem_iff.mp ht) hu heq)
  rcases before_or_before (t := t) (u := u) (by simp [rank, hkey]) with h | h
  · exact hut h
  · exact htu h

end Task

/-! ### Sessions on credit -/

namespace Session

/-- The queue of a session is metered, and nothing but credit holds a task back. -/
structure OnCredit (s : Session) (available inFlight : Nat) (waiting : List Task) : Prop where
  policy : s.queue.policy = .plain
  credit : s.queue.credit = .metered available inFlight
  ordered : s.queue.scanned.ordered = true
  tasks : s.queue.scanned.tasks = waiting
  readiness : s.readiness = {}

namespace OnCredit

variable {s : Session} {available inFlight : Nat} {waiting : List Task}

/-- A queue that is created metered has all of its budget. -/
theorem start {config : QueueConfig} {role : Role} {q : Queue}
    (hq : Queue.create .reduce config role = .ok q) (h : config.Meters .reduce role) :
    OnCredit { queue := q } (config.partitionBound * config.effectiveMultiplier) 0 [] := by
  obtain ⟨hpolicy, hcredit⟩ := Queue.create_of_meters hq h
  have hordered : q.scanned.ordered = q.credit.isMetered :=
    ordered_after (s := { queue := q }) hq []
  rw [hcredit] at hordered
  have hempty := Queue.tasks_create hq
  simp only [Queue.tasks, List.append_eq_nil_iff] at hempty
  exact ⟨hpolicy, hcredit, hordered, hempty.1, rfl⟩

theorem admits_iff (h : s.OnCredit available inFlight waiting) {t : Task} (hflag : t.flag = none) :
    s.queue.admits s.readiness t = true ↔ t.len ≤ available := by
  rw [Queue.admits_eq_true_iff]
  simp [hflag, h.credit, h.readiness, Credit.isMetered, Credit.available]

/-- A covered task in front leaves. -/
theorem dispatch_some {t : Task} {later : List Task}
    (h : s.OnCredit available inFlight (t :: later)) (hflag : t.flag = none)
    (hlen : t.len ≤ available) :
    ∃ s', s.dispatch = .answered (some t) s' ∧
      s'.OnCredit (available - t.len) (inFlight + t.len) later := by
  have hfirst : s.queue.scanned.tasks = [] ++ t :: later := h.tasks
  obtain ⟨credit, s', hacquire, hdispatch, hq⟩ :=
    dispatch_of_first h.policy hfirst (by simp) ((h.admits_iff hflag).mpr hlen)
  rw [h.credit] at hacquire
  obtain ⟨-, rfl⟩ := Credit.acquire_metered_eq_ok hacquire
  have hreadiness := s.readiness_dispatch
  rw [hdispatch, h.readiness, Outcome.state_answered] at hreadiness
  rw [Task.released_of_unflagged hflag] at hdispatch
  refine ⟨s', hdispatch, ?_, ?_, ?_, ?_, ?_⟩
  · rw [hq]
    exact h.policy
  · rw [hq]
  · rw [hq]
    exact h.ordered
  · rw [hq]
    rfl
  · simpa [Queue.acknowledge, Readiness.acknowledge] using hreadiness

/-- Where no task is covered, nothing happens. -/
theorem dispatch_none (h : s.OnCredit available inFlight waiting)
    (hlens : ∀ t ∈ waiting, available < t.len) : s.dispatch = .answered none s := by
  refine dispatch_of_none h.policy fun t ht => ?_
  rw [h.tasks] at ht
  have hlen := hlens t ht
  rw [Bool.eq_false_iff, Ne, Queue.admits_eq_true_iff, h.credit]
  rintro ⟨-, hcovered, -⟩
  exact absurd (hcovered rfl) (Nat.not_le.mpr hlen)

/-- What is in flight can be reported. -/
theorem finish (h : s.OnCredit available inFlight waiting) {len : Nat} (hlen : len ≤ inFlight) :
    ∃ s', settle (s.finish len) = .ok s' ∧
      s'.OnCredit (available + len) (inFlight - len) waiting := by
  have hback : s.queue.credit.giveBack len = .ok (.metered (available + len) (inFlight - len)) := by
    rw [h.credit, Credit.giveBack, if_pos hlen]
  rw [Session.finish, Queue.finish_plain h.policy, Queue.returnCredit, hback]
  exact ⟨_, rfl, h.policy, rfl, h.ordered, h.tasks, h.readiness⟩

/-- A task with a name is put among those that wait. -/
theorem submit (h : s.OnCredit available inFlight waiting) {t : Task}
    (hname : t.name.isEmpty = false) :
    ∃ s', settle (s.submit t) = .ok s' ∧
      s'.OnCredit available inFlight (Pending.place t waiting) := by
  obtain ⟨n, hsubmit⟩ := Queue.submit_named_plain h.policy s.now hname
  obtain ⟨profiles, hsubmit⟩ := submit_of_answered hsubmit
  rw [hsubmit]
  refine ⟨_, rfl, h.policy, h.credit, h.ordered, ?_, h.readiness⟩
  simp [Pending.insert, h.ordered, h.tasks]

/-- Tasks wait by rank once all of them are submitted. -/
theorem submitAll (h : s.OnCredit available inFlight waiting)
    (hsorted : waiting.Pairwise fun t u => ¬ u.Before t) {tasks : List Task}
    (hnames : ∀ t ∈ tasks, t.name.isEmpty = false) :
    ∃ s' waiting', Rehearsal.submitAll s tasks = .ok s' ∧
      s'.OnCredit available inFlight waiting' ∧ waiting' ~ waiting ++ tasks ∧
      waiting'.Pairwise fun t u => ¬ u.Before t := by
  induction tasks generalizing s waiting with
  | nil => exact ⟨s, waiting, rfl, h, by simp, hsorted⟩
  | cons t tasks ih =>
    obtain ⟨s₁, hsubmit, h₁⟩ := h.submit (hnames t List.mem_cons_self)
    obtain ⟨s', waiting', hrest, h', hperm, hsorted'⟩ :=
      ih h₁ (Pending.pairwise_not_before_place hsorted) fun u hu =>
        hnames u (List.mem_cons_of_mem t hu)
    refine ⟨s', waiting', ?_, h', ?_, hsorted'⟩
    · rw [Rehearsal.submitAll, List.foldlM_cons, hsubmit]
      exact hrest
    · exact hperm.trans (((Pending.perm_place t waiting).append_right tasks).trans
        List.perm_middle.symm)

end OnCredit

end Session

/-! ### Workers -/

namespace Rehearsal

namespace Worker

/-- A worker in the middle of an iteration: what it has taken and what still waits make up the
line, in its order, and what is in flight of the budget are the bytes that it still has to
report. -/
structure Covers (budget : Nat) (line : List Task) (w : Worker) (available : Nat)
    (rest : List Task) : Prop where
  credit : w.session.OnCredit available (w.inFlight.map Task.len).sum rest
  budget : available + (w.inFlight.map Task.len).sum = budget
  taken : w.emitted.toList ++ rest = line

namespace Covers

variable {budget available len : Nat} {line rest : List Task} {w : Worker}

/-- What is still to come is what has not been taken. -/
theorem length_eq (h : Covers budget line w available rest) :
    w.emitted.size + rest.length = line.length := by
  have hlength := congrArg List.length h.taken
  rwa [List.length_append, Array.length_toList] at hlength

/-- The oldest task in flight can be reported finished. -/
theorem finish (h : Covers budget line w available rest) {t : Task} {later : List Task}
    (hflight : w.inFlight = t :: later) :
    ∃ s', settle (w.session.finish t.len) = .ok s' ∧
      Covers budget line { w with session := s', inFlight := later } (available + t.len) rest := by
  have hcredit := h.credit
  have hbudget := h.budget
  rw [hflight, List.map_cons, List.sum_cons] at hcredit hbudget
  obtain ⟨s', hfinish, h'⟩ := hcredit.finish (Nat.le_add_right t.len _)
  rw [Nat.add_sub_cancel_left] at h'
  exact ⟨s', hfinish, h', by rwa [Nat.add_assoc], h.taken⟩

/-- Tasks in flight can be reported finished until few enough are left. -/
theorem finishBeyond (h : Covers budget line w available rest) (depth : Nat) :
    ∃ s' inFlight available', finishBeyond depth w.session w.inFlight = .ok (s', inFlight) ∧
      inFlight.length ≤ depth ∧
      Covers budget line { w with session := s', inFlight } available' rest := by
  obtain ⟨s', inFlight, hfinish, hlength, available', h'⟩ := exists_finishBeyond
    (I := fun s' inFlight => ∃ available',
      Covers budget line { w with session := s', inFlight } available' rest)
    (by
      rintro s t later ⟨_, h⟩
      obtain ⟨s', hfinish, h'⟩ := h.finish rfl
      exact ⟨s', hfinish, _, h'⟩) ⟨available, h⟩ depth
  exact ⟨s', inFlight, available', hfinish, hlength, h'⟩

/-- Where the budget covers each task of the line, every turn goes on while there is one to come. -/
theorem turn (h : Covers budget line w available rest)
    (hline : ∀ t ∈ line, t.flag = none ∧ t.len = len) (hlen : len ≤ budget)
    (hmore : w.emitted.size < line.length) (depth : Nat) :
    ∃ w' available' rest', w.turn depth = .ok w' ∧ Covers budget line w' available' rest' := by
  have hrest : ∀ t ∈ rest, t.flag = none ∧ t.len = len := fun t ht =>
    hline t (h.taken ▸ List.mem_append_right _ ht)
  have hlength := h.length_eq
  obtain ⟨t, later, rfl⟩ : ∃ t later, rest = t :: later :=
    List.exists_cons_of_length_pos (by omega)
  obtain ⟨hflag, htlen⟩ := hrest t List.mem_cons_self
  by_cases hcovered : len ≤ available
  · obtain ⟨s₁, hdispatch, h₁⟩ := h.credit.dispatch_some hflag (htlen ▸ hcovered)
    have htook : Covers budget line
        { session := s₁, inFlight := w.inFlight ++ [t], emitted := w.emitted.push t, idle := 0 }
        (available - t.len) later := by
      refine ⟨by simpa using h₁, ?_, by simpa using h.taken⟩
      have hbudget := h.budget
      simp only [List.map_append, List.map_singleton, List.sum_append, List.sum_singleton]
      omega
    obtain ⟨s', inFlight, available', hfinish, -, h'⟩ := htook.finishBeyond depth
    refine ⟨_, _, _, ?_, h'⟩
    simp only [Worker.turn, hdispatch, Outcome.answered, hfinish]
    rfl
  -- a part of the budget is missing, so a task is in flight
  · have hdispatch : w.session.dispatch = .answered none w.session :=
      h.credit.dispatch_none fun u hu => by
        rw [(hrest u hu).2]
        exact Nat.lt_of_not_le hcovered
    obtain ⟨u, others, hflight⟩ : ∃ u others, w.inFlight = u :: others := by
      refine List.exists_cons_of_ne_nil fun hnil => ?_
      have hbudget := h.budget
      rw [hnil, List.map_nil, List.sum_nil] at hbudget
      omega
    obtain ⟨s', hfinish, h'⟩ := h.finish hflight
    refine ⟨_, _, _, ?_, h'⟩
    simp only [Worker.turn, hdispatch, Outcome.answered, hflight, hfinish]
    rfl

end Covers

variable {budget available inFlight len : Nat} {line rest waiting : List Task} {w : Worker}

/-- A worker takes turns until it has taken the whole line. -/
theorem exists_work_of_covers (h : Covers budget line w available rest)
    (hline : ∀ t ∈ line, t.flag = none ∧ t.len = len) (hlen : len ≤ budget) (depth : Nat) :
    ∃ w' available' rest', w.work line.length depth = .ok w' ∧
      Covers budget line w' available' rest' ∧ line.length ≤ w'.emitted.size := by
  obtain ⟨w', hwork, ⟨available', rest', h'⟩, hall⟩ := exists_work_of_invariant
    (I := fun w => ∃ available rest, Covers budget line w available rest)
    (by
      rintro w ⟨_, _, h⟩ hmore
      obtain ⟨w', available', rest', hturn, h'⟩ := h.turn hline hlen hmore depth
      exact ⟨w', hturn, available', rest', h'⟩) ⟨available, rest, h⟩
  exact ⟨w', available', rest', hwork, h', hall⟩

/-- A worker that has nothing in flight and finds no task covered lets time pass, or gives up. -/
theorem turn_of_uncovered (h : w.session.OnCredit available inFlight waiting)
    (hlens : ∀ t ∈ waiting, available < t.len) (hflight : w.inFlight = []) (depth : Nat) :
    w.turn depth =
      if idleLimit < w.idle + 1 then .error (.stalled waiting.length)
      else
        .ok { w with
          session := { w.session with clock := advanceMicros tickMicros w.session.clock }
          idle := w.idle + 1 } := by
  have hpending : w.session.queue.pendingSize = waiting.length := by
    simp [Queue.pendingSize, Pending.size, h.tasks, h.policy, Policy.pendingSize]
  simp only [turn, h.dispatch_none hlens, Outcome.answered, hflight, hpending]

/-- A worker that has nothing in flight and finds no task covered gives up in the end, with every
task still waiting. -/
theorem work_of_uncovered {expected : Nat} (h : w.session.OnCredit available inFlight waiting)
    (hlens : ∀ t ∈ waiting, available < t.len) (hflight : w.inFlight = [])
    (hmore : w.emitted.size < expected) (depth : Nat) :
    w.work expected depth = .error (.stalled waiting.length) := by
  fun_induction work expected depth w with
  | case1 w hmore halt hturn =>
    rw [turn_of_uncovered h hlens hflight] at hturn
    split at hturn
    · cases hturn
      rfl
    · cases hturn
  | case2 w hmore w₁ hturn hdecreases ih =>
    rw [turn_of_uncovered h hlens hflight] at hturn
    split at hturn
    · cases hturn
    -- only the clock and the count of idle polls have moved
    · cases hturn
      exact ih { h with } hflight hmore
  | case3 w hall => exact absurd hmore hall

end Worker

/-! ### Iterations -/

section

variable {budget len : Nat} {s : Session} {tasks : List Task}

/-- Tasks that the budget covers are taken by rank, and in the end no credit is in flight. -/
theorem exists_runIteration_of_covered (h : s.OnCredit budget 0 [])
    (htasks : ∀ t ∈ tasks, t.name.isEmpty = false ∧ t.flag = none ∧ t.len = len)
    (hlen : len ≤ budget) (depth : Nat) :
    ∃ s' taken, runIteration depth tasks s = .ok (s', taken) ∧ taken ~ tasks ∧
      (taken.Pairwise fun t u => ¬ u.Before t) ∧ s'.OnCredit budget 0 [] := by
  obtain ⟨s₁, waiting, hsubmit, h₁, hperm, hsorted⟩ :=
    h.submitAll .nil fun t ht => (htasks t ht).1
  rw [List.nil_append] at hperm
  have hstart : Worker.Covers budget waiting { session := s₁ } budget waiting :=
    ⟨h₁, rfl, rfl⟩
  obtain ⟨w, available, rest, hwork, hcovers, hall⟩ := Worker.exists_work_of_covers hstart
    (fun t ht => (htasks t (hperm.mem_iff.mp ht)).2) hlen depth
  obtain ⟨s', inFlight, available', hfinish, hflight, h'⟩ := hcovers.finishBeyond 0
  obtain rfl : inFlight = [] := List.eq_nil_of_length_eq_zero (Nat.le_zero.mp hflight)
  have hlength := hcovers.length_eq
  obtain rfl : rest = [] := List.eq_nil_of_length_eq_zero (by omega)
  have htaken : w.emitted.toList ++ [] = waiting := h'.taken
  rw [List.append_nil] at htaken
  obtain rfl : available' = budget := h'.budget
  refine ⟨s', waiting, ?_, hperm, hsorted, h'.credit⟩
  rw [runIteration, hsubmit, ← hperm.length_eq]
  simp only [bind, Except.bind, hwork, hfinish, htaken]
  rfl

/-- Tasks that the budget does not cover are never taken. -/
theorem runIteration_of_uncovered (h : s.OnCredit budget 0 [])
    (htasks : ∀ t ∈ tasks, t.name.isEmpty = false ∧ t.flag = none ∧ t.len = len)
    (hlen : budget < len) (hsome : tasks ≠ []) (depth : Nat) :
    runIteration depth tasks s = .error (.stalled tasks.length) := by
  obtain ⟨s₁, waiting, hsubmit, h₁, hperm, -⟩ := h.submitAll .nil fun t ht => (htasks t ht).1
  rw [List.nil_append] at hperm
  have hwork : Worker.work tasks.length depth { session := s₁ } =
      .error (.stalled waiting.length) :=
    Worker.work_of_uncovered h₁
      (fun t ht => (htasks t (hperm.mem_iff.mp ht)).2.2.symm ▸ hlen) rfl
      (List.length_pos_iff.mpr hsome) depth
  rw [runIteration, hsubmit, ← hperm.length_eq]
  rw [← hperm.length_eq] at hwork
  simp only [bind, Except.bind, hwork]

/-- If each of the next iterations comes to its end under an invariant, so do all of them, and what
holds of the tasks that each one takes holds of all that are taken. -/
theorem exists_runIterations_of_invariant {depth : Nat} {P : List Task → Prop}
    {I : Nat → Random.Generator → Session → Prop}
    (hiteration : ∀ {remaining g s}, I (remaining + 1) g s → ∃ s' taken,
      runIteration depth (Random.shuffle tasks g).1 s = .ok (s', taken) ∧ P taken ∧
        I remaining (Random.shuffle tasks g).2 s')
    (hsome : ∃ ts, P ts) {remaining : Nat} {g : Random.Generator} (h : I remaining g s)
    (iteration : Nat) :
    ∃ (taken : Nat → List Task) (s' : Session),
      runIterations depth tasks remaining iteration g s =
        .ok ((List.range' iteration remaining).flatMap fun k => emissionsOf k (taken k), s') ∧
      ∀ k, P (taken k) := by
  induction remaining generalizing iteration s g with
  | zero =>
    obtain ⟨ts, hts⟩ := hsome
    exact ⟨fun _ => ts, s, rfl, fun _ => hts⟩
  | succ remaining ih =>
    obtain ⟨s₁, first, hfirst, hholds, h₁⟩ := hiteration h
    obtain ⟨later, s', hlater, hall⟩ := ih h₁ (iteration + 1)
    refine ⟨Function.update later iteration first, s', ?_, fun k => ?_⟩
    · have hsame : ∀ k ∈ List.range' (iteration + 1) remaining,
          emissionsOf k (Function.update later iteration first k) = emissionsOf k (later k) := by
        intro k hk
        have hne : k ≠ iteration := by
          rw [List.mem_range'_1] at hk
          omega
        rw [Function.update_of_ne hne]
      rw [List.range'_succ, List.flatMap_cons, Function.update_self, List.flatMap_congr hsame]
      simp only [runIterations, hfirst, bind, Except.bind, hlater]
      rfl
    · by_cases hk : k = iteration
      · rw [hk, Function.update_self]
        exact hholds
      · rw [Function.update_of_ne hk]
        exact hall k

/-- Each of the next iterations takes its tasks by rank. -/
theorem exists_runIterations_of_covered (h : s.OnCredit budget 0 [])
    (htasks : ∀ t ∈ tasks, t.name.isEmpty = false ∧ t.flag = none ∧ t.len = len)
    (hlen : len ≤ budget) (depth remaining iteration : Nat) (g : Random.Generator) :
    ∃ (taken : Nat → List Task) (s' : Session),
      runIterations depth tasks remaining iteration g s =
        .ok ((List.range' iteration remaining).flatMap fun k => emissionsOf k (taken k), s') ∧
      (∀ k, taken k ~ tasks ∧ (taken k).Pairwise fun t u => ¬ u.Before t) := by
  refine exists_runIterations_of_invariant (I := fun _ _ s => s.OnCredit budget 0 [])
    (P := fun taken => taken ~ tasks ∧ taken.Pairwise fun t u => ¬ u.Before t) ?_
    ⟨_, Task.byRank_perm tasks, Task.pairwise_byRank tasks⟩ h iteration
  intro _ g s h
  have hperm := Random.shuffle_perm tasks g
  obtain ⟨s', taken, hfirst, htaken, hsorted, h'⟩ := exists_runIteration_of_covered h
    (fun t ht => htasks t (hperm.mem_iff.mp ht)) hlen depth
  exact ⟨s', taken, hfirst, ⟨htaken.trans hperm, hsorted⟩, h'⟩

/-- The next iteration stalls, where it has tasks that the budget does not cover. -/
theorem runIterations_of_uncovered (h : s.OnCredit budget 0 [])
    (htasks : ∀ t ∈ tasks, t.name.isEmpty = false ∧ t.flag = none ∧ t.len = len)
    (hlen : budget < len) (hsome : tasks ≠ []) (depth : Nat) {remaining : Nat}
    (hremaining : 0 < remaining) (iteration : Nat) (g : Random.Generator) :
    runIterations depth tasks remaining iteration g s =
      .error (.stalled iteration tasks.length) := by
  obtain ⟨n, rfl⟩ := Nat.exists_eq_succ_of_ne_zero (Nat.ne_of_gt hremaining)
  have hperm := Random.shuffle_perm tasks g
  have hshuffled : (Random.shuffle tasks g).1 ≠ [] := fun hnil =>
    hsome (List.perm_nil.mp (hnil ▸ hperm).symm)
  have hfirst := runIteration_of_uncovered h (fun t ht => htasks t (hperm.mem_iff.mp ht)) hlen
    hshuffled depth
  simp only [runIterations, hfirst, hperm.length_eq, Halt.inIteration]

end

/-! ### Rehearsals -/

/-- What some iterations emit that each take the synthetic tasks by rank. -/
theorem emissions_by_rank {priorities : List Int} {partitions len iterations : Nat}
    {beginName : Option String} (hpartitions : partitions ≤ partitionBound)
    {taken : Nat → List Task}
    (htaken : ∀ k, taken k ~ synthesize priorities partitions len beginName ∧
      (taken k).Pairwise fun t u => ¬ u.Before t) :
    let tasks := synthesize priorities partitions len beginName
    let emissions := (List.range iterations).flatMap fun k => emissionsOf k (taken k)
    (∀ iteration < iterations, ∃ ts : List Task, ts ~ tasks ∧
      emissions.filter (·.iteration == iteration) = emissionsOf iteration ts ∧
      ts.map Task.rank = (Task.byRank tasks).map Task.rank ∧
      (priorities.length ≤ tensorBound → ts = Task.byRank tasks)) ∧
    ∀ e ∈ emissions, e.iteration < iterations := by
  intro tasks emissions
  refine ⟨fun iteration hlt => ?_, fun e he => ?_⟩
  · obtain ⟨hperm, hsorted⟩ := htaken iteration
    have hsame := hperm.trans (Task.byRank_perm tasks).symm
    refine ⟨taken iteration, hperm, filter_emissions taken hlt,
      Task.map_rank_eq hsame hsorted (Task.pairwise_byRank tasks), fun hlength => ?_⟩
    refine Task.eq_of_nodup_keys hsame hsorted (Task.pairwise_byRank tasks) ?_
    exact (((Task.byRank_perm tasks).map Task.key).nodup_iff).mpr
      (nodup_keys_synthesize hpartitions hlength)
  · obtain ⟨k, hk, hek⟩ := List.mem_flatMap.mp he
    rw [iteration_of_mem_emissionsOf hek]
    exact List.mem_range.mp hk

/-- **Credited rehearsals.** At the reduction of a signal root that meters credit, a rehearsal of at
least one task reports exactly if the length of a partition is within the budget. Each iteration
then emits its tasks by descending priority and ascending key, whatever the seed and the number of
tasks in flight. Otherwise the first iteration stalls with all of its tasks pending. -/
theorem run_by_rank_or_stalls (config : Config) (options : Options) {priorities : List Int}
    (hvalid : config.queue.validate = .ok ()) (hroot : config.role.signalRoot = true)
    (hmultiplier : 0 < config.queue.effectiveMultiplier) (hstage : options.stage = .reduce)
    (hiterations : 0 < options.iterations)
    (hpriorities : tensorPriorities config.queue options.tensors = .ok priorities)
    (hsome : priorities ≠ []) (hpartitions : options.partitions ≤ partitionBound) :
    let budget := config.queue.partitionBound * config.queue.effectiveMultiplier
    let tasks := synthesize priorities options.partitions options.len config.queue.beginName
    ((∃ report, run config options = .ok report) ↔ options.len ≤ budget) ∧
    (∀ report, run config options = .ok report →
      (∀ iteration < options.iterations, ∃ taken : List Task, taken ~ tasks ∧
        report.emissions.filter (·.iteration == iteration) = emissionsOf iteration taken ∧
        taken.map Task.rank = (Task.byRank tasks).map Task.rank ∧
        (priorities.length ≤ tensorBound → taken = Task.byRank tasks)) ∧
      ∀ e ∈ report.emissions, e.iteration < options.iterations) ∧
    (¬ options.len ≤ budget → run config options = .error (.stalled 0 tasks.length)) := by
  intro budget tasks
  obtain ⟨q, hq⟩ : ∃ q, Queue.create .reduce config.queue config.role = .ok q :=
    Queue.exists_create_of_plain hvalid rfl config.role
  have hstart := Session.OnCredit.start hq ⟨rfl, hroot, hmultiplier⟩
  have htasks : ∀ t ∈ tasks, t.name.isEmpty = false ∧ t.flag = none ∧ t.len = options.len :=
    fun _ ht => ⟨(gradient_of_mem_synthesize ht).1, uniform_of_mem_synthesize ht⟩
  have hrun := run_eq_map (by rw [hstage]; exact hq) hpriorities
    (checkedTasks_of_le hpartitions priorities options.len config.queue.beginName)
  by_cases hlen : options.len ≤ budget
  · obtain ⟨taken, s, hruns, htaken⟩ := exists_runIterations_of_covered hstart htasks hlen
      (max 1 options.depth) options.iterations 0 (.ofSeed options.seed)
    rw [hruns, ← List.range_eq_range'] at hrun
    refine ⟨iff_of_true ⟨_, hrun⟩ hlen, fun report hreport => ?_, fun h => absurd hlen h⟩
    cases hreport.symm.trans hrun
    exact emissions_by_rank hpartitions htaken
  · rw [runIterations_of_uncovered hstart htasks (Nat.lt_of_not_le hlen)
      (synthesize_ne_nil hsome) _ hiterations] at hrun
    refine ⟨iff_of_false ?_ hlen, fun report hreport => ?_, fun _ => hrun⟩
    · rintro ⟨report, hreport⟩
      cases hreport.symm.trans hrun
    · cases hreport.symm.trans hrun

/-- Three tensors, the first of them of a middle priority, and an account of 32 bytes. -/
def creditedConfig : Config where
  queue :=
    { partitionBound := 16
      creditMultiplier := some 2
      beginName := some "fc"
      schedule := some ⟨[-2, -1], -1, 3⟩ }
  role := { signalRoot := true }

/-- Two partitions of some length for each tensor. A worker may keep more of them in flight than the
account covers. -/
def creditedOptions (len : Nat) : Options :=
  { stage := .reduce, iterations := 2, partitions := 2, len, depth := 5, seed := 7 }

theorem run_by_rank_or_stalls_creditedRun :
    (∃ report, run creditedConfig (creditedOptions 16) = .ok report ∧
      (report.emissions.filter (·.iteration == 1)).map (fun e => (e.name, e.key, e.priority)) =
        [("tensor1_gradient", 0x10000, -1), ("tensor1_gradient", 0x10001, -1),
          ("fc_gradient", 0, -2), ("fc_gradient", 1, -2),
          ("tensor2_gradient", 0x20000, -3), ("tensor2_gradient", 0x20001, -3)]) ∧
      run creditedConfig (creditedOptions 33) = .error (.stalled 0 6) := by
  have hpriorities : ∀ len, tensorPriorities creditedConfig.queue (creditedOptions len).tensors =
      .ok [-2, -1, -3] := fun _ => rfl
  obtain ⟨hcovered, hemissions, -⟩ := run_by_rank_or_stalls creditedConfig (creditedOptions 16)
    rfl rfl (by decide) rfl (by decide) (hpriorities 16) (by decide) (by decide)
  obtain ⟨-, -, hstalls⟩ := run_by_rank_or_stalls creditedConfig (creditedOptions 33)
    rfl rfl (by decide) rfl (by decide) (hpriorities 33) (by decide) (by decide)
  obtain ⟨report, hrun⟩ := hcovered.mpr (by decide)
  obtain ⟨hiterations, -⟩ := hemissions report hrun
  obtain ⟨taken, -, hfilter, -, htaken⟩ := hiterations 1 (by decide)
  refine ⟨⟨report, hrun, ?_⟩, hstalls (by decide)⟩
  have hsorted : Task.byRank (synthesize [-2, -1, -3] 2 16 (some "fc")) =
      partitionsOf 2 16 (some "fc") 1 (-1) ++ partitionsOf 2 16 (some "fc") 0 (-2) ++
        partitionsOf 2 16 (some "fc") 2 (-3) :=
    Task.eq_of_nodup_keys ((Task.byRank_perm _).trans (by decide +kernel))
      (Task.pairwise_byRank _) (by decide +kernel) (by decide +kernel)
  rw [hfilter, map_emissionsOf, htaken (by decide)]
  show (Task.byRank (synthesize [-2, -1, -3] 2 16 (some "fc"))).map _ = _
  rw [hsorted]
  decide +kernel

end Rehearsal

end TensorDispatch
