import TensorDispatch.Proofs.History
import TensorDispatch.Proofs.Rehearsal.Polls

/-!
# The record of a rehearsal

What a rehearsal does to its session, one **deed** after the other: tasks are submitted, polls take
a task or none, tasks are reported finished, and time moves on.

* `Performs` — a session goes through a list of deeds, each of them answered, and each poll taking
  what the deed says;
* `Worker.Does` — what a worker does between two of its states: it takes tasks, and reports them in
  the order in which it has taken them;
* `Worker.workDeeds`, `iterationDeeds`, `record` — the deeds of the poll loop, of an iteration and
  of a whole rehearsal, computed along the rehearsal itself. What comes to its end has done these
  deeds (`Worker.work_does`, `performs_of_runIteration`);
* `runIteration_eq_ok`, `runIterations_succ_eq_ok`, `run_eq_ok` — what has succeeded where the whole
  does.
-/

namespace TensorDispatch.Rehearsal

/-! ### Deeds -/

/-- One thing that a worker does, with what comes of it. -/
inductive Deed
  | submit (t : Task)
  /-- A poll, and the task it takes. -/
  | poll (taken : Option Task)
  | report (t : Task)
  /-- Time moves on. -/
  | wait
  deriving DecidableEq, Repr

namespace Deed

/-- The action on the session. -/
def action : Deed → Action
  | submit t => .submit t
  | poll _ => .dispatch
  | report t => .finish t.len
  | wait => .change (.advance tickMicros)

@[simp] def submitted? : Deed → Option Task
  | submit t => some t
  | _ => none

@[simp] def taken? : Deed → Option Task
  | poll t => t
  | _ => none

@[simp] def reported? : Deed → Option Task
  | report t => some t
  | _ => none

end Deed

/-- A session goes through some deeds. All of them are answered, with the tasks that are taken. -/
inductive Performs : Session → List Deed → Session → Prop
  | nil (s : Session) : Performs s [] s
  | cons {s s₁ s' : Session} {d : Deed} {deeds : List Deed}
      (hact : s.act d.action = .answered d.taken? s₁) (hrest : Performs s₁ deeds s') :
      Performs s (d :: deeds) s'

namespace Performs

variable {s s₁ s' : Session} {deeds deeds' : List Deed}

theorem append (h : Performs s deeds s₁) (h' : Performs s₁ deeds' s') :
    Performs s (deeds ++ deeds') s' := by
  induction h with
  | nil => exact h'
  | cons hact _ ih => exact .cons hact (ih h')

/-- The deeds lead where their actions lead. -/
theorem after (h : Performs s deeds s') : s.after (deeds.map Deed.action) = s' := by
  induction h with
  | nil => rfl
  | cons hact _ ih =>
    rw [List.map_cons, Session.after_cons, hact]
    exact ih

end Performs

/-- What settles was answered. -/
theorem eq_answered_of_settle {α : Type} {o : Outcome Session α} {s : Session}
    (h : settle o = .ok s) : ∃ a, o = .answered a s := by
  obtain ⟨result, state⟩ := o
  cases result with
  | error f => cases h
  | ok a =>
    cases h
    exact ⟨a, rfl⟩

theorem act_submit {t : Task} {s s' : Session} (h : settle (s.submit t) = .ok s') :
    s.act (Deed.submit t).action = .answered none s' := by
  obtain ⟨a, hsubmit⟩ := eq_answered_of_settle h
  rw [Deed.action, Session.act, hsubmit]
  rfl

theorem act_report {t : Task} {s s' : Session} (h : settle (s.finish t.len) = .ok s') :
    s.act (Deed.report t).action = .answered none s' := by
  obtain ⟨a, hfinish⟩ := eq_answered_of_settle h
  rw [Deed.action, Session.act, hfinish]
  rfl

/-- All submissions of an iteration are performed. -/
theorem performs_of_submitAll {tasks : List Task} {s s' : Session}
    (h : submitAll s tasks = .ok s') : Performs s (tasks.map .submit) s' := by
  induction tasks generalizing s with
  | nil =>
    cases h
    exact .nil _
  | cons t tasks ih =>
    rw [submitAll, List.foldlM_cons] at h
    cases hsubmit : settle (s.submit t) with
    | error halt =>
      rw [hsubmit] at h
      cases h
    | ok s₁ =>
      rw [hsubmit] at h
      exact .cons (act_submit hsubmit) (ih h)

/-! ### Workers -/

namespace Worker

/-- What a worker does between two of its states. -/
structure Does (w : Worker) (deeds : List Deed) (w' : Worker) : Prop where
  performs : Performs w.session deeds w'.session
  submitted : deeds.filterMap Deed.submitted? = []
  emitted : w'.emitted.toList = w.emitted.toList ++ deeds.filterMap Deed.taken?
  /-- Tasks are reported in the order in which they are taken. -/
  flight : w.inFlight ++ deeds.filterMap Deed.taken? =
    deeds.filterMap Deed.reported? ++ w'.inFlight

variable {expected depth : Nat} {w w₁ w' : Worker} {deeds deeds' : List Deed}

theorem Does.refl (w : Worker) : w.Does [] w where
  performs := .nil w.session
  submitted := rfl
  emitted := by simp
  flight := by simp

theorem Does.trans (h : w.Does deeds w₁) (h' : w₁.Does deeds' w') :
    w.Does (deeds ++ deeds') w' where
  performs := h.performs.append h'.performs
  submitted := by rw [List.filterMap_append, h.submitted, h'.submitted, List.append_nil]
  emitted := by rw [h'.emitted, h.emitted, List.filterMap_append, List.append_assoc]
  flight := by
    rw [List.filterMap_append, List.filterMap_append, ← List.append_assoc, h.flight,
      List.append_assoc, h'.flight, List.append_assoc]

/-- The tasks in flight beyond the depth, the oldest first. -/
def surplus (depth : Nat) (inFlight : List Task) : List Task :=
  inFlight.take (inFlight.length - depth)

/-- What is reported is the surplus. -/
theorem finishBeyond_does {s' : Session} {inFlight : List Task}
    (h : finishBeyond depth w.session w.inFlight = .ok (s', inFlight)) :
    w.Does ((surplus depth w.inFlight).map .report) { w with session := s', inFlight } := by
  induction hflight : w.inFlight generalizing w with
  | nil =>
    rw [hflight] at h
    cases h
    have hnone : surplus depth w.inFlight = [] := by rw [hflight, surplus, List.take_nil]
    rw [← hflight, hnone]
    exact .refl w
  | cons t rest ih =>
    rw [hflight, finishBeyond] at h
    split at h
    · rename_i hdepth
      have hsurplus : surplus depth (t :: rest) = t :: surplus depth rest := by
        rw [List.length_cons] at hdepth
        rw [surplus, surplus, List.length_cons, Nat.succ_sub (Nat.le_of_lt_succ hdepth),
          List.take_succ_cons]
      cases hfinish : settle (w.session.finish t.len) with
      | error halt =>
        rw [hfinish] at h
        cases h
      | ok s₁ =>
        rw [hfinish] at h
        have hreport : w.Does [.report t] { w with session := s₁, inFlight := rest } := {
          performs := .cons (act_report hfinish) (.nil s₁)
          submitted := rfl
          emitted := by simp
          flight := by simp [hflight] }
        rw [hsurplus]
        exact hreport.trans (ih h rfl)
    · rename_i hdepth
      have hsurplus : surplus depth (t :: rest) = [] := by
        rw [surplus, Nat.sub_eq_zero_of_le (Nat.le_of_not_lt hdepth), List.take_zero]
      cases h
      rw [hsurplus]
      simpa [← hflight] using Does.refl w

/-- The deeds of a turn. -/
def turnDeeds (depth : Nat) (w : Worker) : List Deed :=
  match w.session.dispatch.result, w.inFlight with
  | .ok (some t), inFlight => .poll (some t) :: (surplus depth (inFlight ++ [t])).map .report
  | _, t :: _ => [.poll none, .report t]
  | _, [] => [.poll none, .wait]

/-- Every turn begins with a poll. -/
theorem exists_turnDeeds (depth : Nat) (w : Worker) :
    ∃ taken deeds, w.turnDeeds depth = .poll taken :: deeds := by
  unfold turnDeeds
  split <;> exact ⟨_, _, rfl⟩

section

variable {s : Session} {t : Task} {rest : List Task}

theorem turnDeeds_of_taken (hdispatch : w.session.dispatch = .answered (some t) s) :
    w.turnDeeds depth = .poll (some t) :: (surplus depth (w.inFlight ++ [t])).map .report := by
  simp only [turnDeeds, hdispatch, Outcome.result_answered]

theorem turnDeeds_of_flight (hdispatch : w.session.dispatch = .answered none s)
    (hflight : w.inFlight = t :: rest) : w.turnDeeds depth = [.poll none, .report t] := by
  simp only [turnDeeds, hdispatch, Outcome.result_answered, hflight]

theorem turnDeeds_of_idle (hdispatch : w.session.dispatch = .answered none s)
    (hflight : w.inFlight = []) : w.turnDeeds depth = [.poll none, .wait] := by
  simp only [turnDeeds, hdispatch, Outcome.result_answered, hflight]

end

theorem turn_does (h : w.turn depth = .ok w') : w.Does (w.turnDeeds depth) w' := by
  cases turned_of_turn h with
  | @took t s s' inFlight hdispatch hfinish =>
    have htake : w.Does [.poll (some t)]
        { session := s, inFlight := w.inFlight ++ [t], emitted := w.emitted.push t, idle := 0 } := {
      performs := .cons hdispatch (.nil s)
      submitted := rfl
      emitted := by simp
      flight := by simp }
    rw [turnDeeds_of_taken hdispatch]
    exact htake.trans (finishBeyond_does hfinish)
  | @reported t rest s s' hdispatch hflight hfinish =>
    rw [turnDeeds_of_flight hdispatch hflight]
    exact {
      performs := .cons hdispatch (.cons (act_report hfinish) (.nil s'))
      submitted := rfl
      emitted := by simp
      flight := by simp [List.filterMap_cons, hflight] }
  | @waited s hdispatch hflight _ =>
    rw [turnDeeds_of_idle hdispatch hflight]
    exact {
      performs := .cons hdispatch (.cons rfl (.nil _))
      submitted := rfl
      emitted := by simp
      flight := by simp [List.filterMap_cons, hflight] }

/-- A turn takes one task at most. -/
theorem size_emitted_turn (h : w.turn depth = .ok w') :
    w'.emitted.size ≤ w.emitted.size + 1 := by
  cases turned_of_turn h with
  | took => simp
  | reported => simp
  | waited => simp

/-- The deeds of the poll loop. -/
def workDeeds (expected depth : Nat) (w : Worker) : List Deed :=
  if h : w.emitted.size < expected then
    match ht : w.turn depth with
    | .error _ => w.turnDeeds depth
    | .ok w' =>
      have := turn_decreases h ht
      w.turnDeeds depth ++ workDeeds expected depth w'
  else []
termination_by w.ahead expected
decreasing_by exact this

/-- A worker that comes to the end of the poll loop has taken as many tasks as it should. -/
theorem work_does (h : w.work expected depth = .ok w') (hsize : w.emitted.size ≤ expected) :
    w.Does (w.workDeeds expected depth) w' ∧ w'.emitted.size = expected := by
  fun_induction workDeeds expected depth w with
  | case1 w hmore halt hturn =>
    rw [work_of_halt hmore hturn] at h
    cases h
  | case2 w hmore w₁ hturn _ ih =>
    rw [work_of_turn hmore hturn] at h
    have hsize₁ := size_emitted_turn hturn
    obtain ⟨hdoes, hall⟩ := ih h (by omega)
    exact ⟨(turn_does hturn).trans hdoes, hall⟩
  | case3 w hall =>
    rw [work_of_le hall] at h
    cases h
    exact ⟨.refl _, by omega⟩

end Worker

/-! ### Iterations -/

/-- The deeds of an iteration. -/
def iterationDeeds (depth : Nat) (tasks : List Task) (s : Session) : List Deed :=
  tasks.map .submit ++
    match submitAll s tasks with
    | .error _ => []
    | .ok s =>
      let w : Worker := { session := s }
      w.workDeeds tasks.length depth ++
        match w.work tasks.length depth with
        | .error _ => []
        | .ok w => w.inFlight.map .report

/-- An iteration comes to its end where its parts do. -/
theorem runIteration_eq_ok {depth : Nat} {tasks taken : List Task} {s s' : Session}
    (h : runIteration depth tasks s = .ok (s', taken)) :
    ∃ s₁ w inFlight, submitAll s tasks = .ok s₁ ∧
      Worker.work tasks.length depth { session := s₁ } = .ok w ∧
      Worker.finishBeyond 0 w.session w.inFlight = .ok (s', inFlight) ∧
      w.emitted.toList = taken := by
  cases hsubmit : submitAll s tasks with
  | error halt => simp [runIteration, hsubmit, bind, Except.bind] at h
  | ok s₁ =>
    cases hwork : Worker.work tasks.length depth { session := s₁ } with
    | error halt => simp [runIteration, hsubmit, hwork, bind, Except.bind] at h
    | ok w =>
      cases hfinish : Worker.finishBeyond 0 w.session w.inFlight with
      | error halt => simp [runIteration, hsubmit, hwork, hfinish, bind, Except.bind] at h
      | ok p =>
        simp only [runIteration, hsubmit, hwork, hfinish, bind, Except.bind, pure, Except.pure,
          Except.ok.injEq, Prod.mk.injEq] at h
        obtain ⟨rfl, rfl⟩ := h
        exact ⟨s₁, w, p.2, rfl, hwork, hfinish, rfl⟩

/-- An iteration that comes to its end has taken as many tasks as it has submitted, and has reported
every one of them in the order in which it has taken them. -/
theorem performs_of_runIteration {depth : Nat} {tasks taken : List Task} {s s' : Session}
    (h : runIteration depth tasks s = .ok (s', taken)) :
    Performs s (iterationDeeds depth tasks s) s' ∧
      (iterationDeeds depth tasks s).filterMap Deed.submitted? = tasks ∧
      (iterationDeeds depth tasks s).filterMap Deed.taken? = taken ∧
      (iterationDeeds depth tasks s).filterMap Deed.reported? = taken ∧
      taken.length = tasks.length := by
  obtain ⟨s₁, w, inFlight, hsubmit, hwork, hfinish, hemitted⟩ := runIteration_eq_ok h
  obtain ⟨hdoes, hsize⟩ := Worker.work_does hwork (Nat.zero_le _)
  -- nothing is left in flight, so everything that has been taken is reported
  have hnone : inFlight = [] :=
    List.eq_nil_of_length_eq_zero (Nat.le_zero.mp (Worker.suffix_of_finishBeyond hfinish).2)
  have hall := hdoes.trans (Worker.finishBeyond_does hfinish)
  rw [Worker.surplus, Nat.sub_zero, List.take_length, hnone] at hall
  set work := Worker.workDeeds tasks.length depth { session := s₁ } ++ w.inFlight.map .report
  have hdeeds : iterationDeeds depth tasks s = tasks.map .submit ++ work := by
    simp only [iterationDeeds, hsubmit, hwork, work]
  have htaken : work.filterMap Deed.taken? = taken := by
    have htotal := hall.emitted
    simpa [hemitted] using htotal.symm
  have hreported : work.filterMap Deed.reported? = taken := by
    have hflight := hall.flight
    simpa [htaken] using hflight.symm
  rw [hdeeds]
  refine ⟨(performs_of_submitAll hsubmit).append hall.performs, ?_, ?_, ?_, ?_⟩
  · simp [List.filterMap_map, Function.comp_def, hall.submitted]
  · simp [List.filterMap_map, Function.comp_def, htaken]
  · simp [List.filterMap_map, Function.comp_def, hreported]
  · rw [← hemitted, Array.length_toList, hsize]

/-! ### Rehearsals -/

/-- The deeds of some iterations over the same tasks. -/
def recordIterations (depth : Nat) (tasks : List Task) :
    Nat → Random.Generator → Session → List (List Deed)
  | 0, _, _ => []
  | remaining + 1, g, s =>
    let (shuffled, g) := Random.shuffle tasks g
    iterationDeeds depth shuffled s ::
      match runIteration depth shuffled s with
      | .error _ => []
      | .ok (s, _) => recordIterations depth tasks remaining g s

/-- Some iterations come to their end where the first of them does, and the later ones behind it. -/
theorem runIterations_succ_eq_ok {depth remaining iteration : Nat} {tasks : List Task}
    {g : Random.Generator} {s s' : Session} {emissions : List Emission}
    (h : runIterations depth tasks (remaining + 1) iteration g s = .ok (emissions, s')) :
    ∃ s₁ taken later, runIteration depth (Random.shuffle tasks g).1 s = .ok (s₁, taken) ∧
      runIterations depth tasks remaining (iteration + 1) (Random.shuffle tasks g).2 s₁ =
        .ok (later, s') ∧
      emissions = emissionsOf iteration taken ++ later ∧
      recordIterations depth tasks (remaining + 1) g s =
        iterationDeeds depth (Random.shuffle tasks g).1 s ::
          recordIterations depth tasks remaining (Random.shuffle tasks g).2 s₁ := by
  cases hfirst : runIteration depth (Random.shuffle tasks g).1 s with
  | error halt => simp [runIterations, hfirst] at h
  | ok p =>
    cases hlater : runIterations depth tasks remaining (iteration + 1)
      (Random.shuffle tasks g).2 p.1 with
    | error failure => simp [runIterations, hfirst, hlater, bind, Except.bind] at h
    | ok p' =>
      simp only [runIterations, hfirst, hlater, bind, Except.bind, pure, Except.pure,
        Except.ok.injEq, Prod.mk.injEq] at h
      obtain ⟨rfl, rfl⟩ := h
      exact ⟨p.1, p.2, p'.1, rfl, hlater, rfl, by simp only [recordIterations, hfirst]⟩

/-- The deeds of a rehearsal, iteration by iteration. -/
def record (config : Config) (options : Options) : List (List Deed) :=
  match Queue.create options.stage config.queue config.role,
    tensorPriorities config.queue options.tensors with
  | .ok queue, .ok priorities =>
    recordIterations (max 1 options.depth)
      (synthesize priorities options.partitions options.len config.queue.beginName)
      options.iterations (.ofSeed options.seed) { queue }
  | _, _ => []

theorem checkedTasks_eq_ok {priorities : List Int} {partitions len : Nat}
    {beginName : Option String} {tasks : List Task}
    (h : checkedTasks priorities partitions len beginName = .ok tasks) :
    tasks = synthesize priorities partitions len beginName := by
  unfold checkedTasks at h
  split at h
  · cases h
    rfl
  · cases hcheck : checkList taskBytes (max 1 partitions) with
    | error fault => simp [hcheck, bind, Except.bind] at h
    | ok u =>
      simp only [hcheck, bind, Except.bind, pure, Except.pure, Except.ok.injEq] at h
      exact h.symm

/-- A rehearsal that reports has come to the end of its iterations. -/
theorem run_eq_ok {config : Config} {options : Options} {report : Report}
    (h : run config options = .ok report) :
    ∃ queue priorities s, Queue.create options.stage config.queue config.role = .ok queue ∧
      tensorPriorities config.queue options.tensors = .ok priorities ∧
      runIterations (max 1 options.depth)
          (synthesize priorities options.partitions options.len config.queue.beginName)
          options.iterations 0 (.ofSeed options.seed) { queue } =
        .ok (report.emissions, s) ∧
      report.state = s.queue.snapshot := by
  cases hcreate : Queue.create options.stage config.queue config.role with
  | error e => simp [run, hcreate, Except.mapError, bind, Except.bind] at h
  | ok queue =>
    cases hpriorities : tensorPriorities config.queue options.tensors with
    | error fault => simp [run, hcreate, hpriorities, Except.mapError, bind, Except.bind] at h
    | ok priorities =>
      refine ⟨queue, priorities, ?_⟩
      simp only [run, hcreate, hpriorities, Except.mapError, bind, Except.bind] at h
      cases hiterations : options.iterations with
      -- without iterations no tasks are looked at
      | zero =>
        rw [hiterations] at h
        cases h
        exact ⟨_, rfl, rfl, rfl, rfl⟩
      | succ n =>
        rw [hiterations, if_neg (Nat.succ_ne_zero n)] at h
        cases htasks : checkedTasks priorities options.partitions options.len
          config.queue.beginName with
        | error fault => simp [htasks] at h
        | ok tasks =>
          simp only [htasks] at h
          cases hruns : runIterations (max 1 options.depth) tasks (n + 1) 0
            (.ofSeed options.seed) { queue } with
          | error failure => simp [hruns] at h
          | ok p =>
            simp only [hruns, pure, Except.pure, Except.ok.injEq] at h
            subst h
            rw [← checkedTasks_eq_ok htasks]
            exact ⟨p.2, rfl, rfl, hruns, rfl⟩

end TensorDispatch.Rehearsal
