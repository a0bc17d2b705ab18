import Mathlib.Data.List.Induction
import TensorDispatch.Session

/-!
# Histories

The callers of a session share it, and each of them holds the queue for one operation at a time.
An **action** is one such operation, or one change of what surrounds the queue; a **history** is
the list of the **moments** of a run, each an action together with the session it meets.

* `Session.act`, `Session.after`, `Session.history` — one action, and the actions of a run in
  order;
* `Session.history_induction` — what holds at first and is kept by every action holds along every
  run;
* `Session.exists_after_of_mem_run` — every call is a list of actions, a drain a long one, so a
  run of calls reaches no session that a run of actions does not.
-/

namespace TensorDispatch

/-- A change of what surrounds a queue. -/
inductive Change
  /-- Raise a readiness flag. -/
  | raise (flag : String)
  /-- Record a contribution to a key in the table. -/
  | contribute (key : Nat)
  /-- Name a profile; a new one starts switched off. -/
  | openProfile (context : String)
  /-- Turn a profile on or off. -/
  | setProfiling (context : String) (on : Bool)
  /-- Move the clock. -/
  | advance (us : Int)
  deriving DecidableEq, Repr

/-- One operation of a queue, or one change of what surrounds it. -/
inductive Action
  | submit (t : Task)
  | dispatch
  | dispatchKey (key : Nat)
  /-- Report bytes of work as finished, of a task or by their number. -/
  | finish (len : Nat)
  | change (c : Change)
  deriving DecidableEq, Repr

namespace Session

/-! ### Actions -/

/-- The session after a change of its surroundings. -/
def apply (c : Change) (s : Session) : Session :=
  match c with
  | .raise flag => (s.step (.raise flag)).state
  | .contribute key => (s.step (.contribute key)).state
  | .openProfile context => { s with profiles := s.profiles.ensure context false }
  | .setProfiling context on => (s.step (.setProfiling context on)).state
  | .advance us => (s.step (.advanceMicros us)).state

/-- Performs an action, which may hand over a task. -/
def act (a : Action) (s : Session) : Outcome Session (Option Task) :=
  match a with
  | .submit t => (s.submit t).map fun _ => none
  | .dispatch => s.dispatch
  | .dispatchKey key => s.dispatchKey key
  | .finish len => (s.finish len).map fun _ => none
  | .change c => .answered none (s.apply c)

/-- The session after some actions. -/
def after (actions : List Action) (s : Session) : Session :=
  actions.foldl (fun s a => (s.act a).state) s

@[simp] theorem after_nil (s : Session) : s.after [] = s := rfl

@[simp] theorem after_cons (a : Action) (actions : List Action) (s : Session) :
    s.after (a :: actions) = (s.act a).state.after actions := rfl

theorem after_append (as bs : List Action) (s : Session) :
    s.after (as ++ bs) = (s.after as).after bs := List.foldl_append

@[simp] theorem queue_apply (c : Change) (s : Session) : (s.apply c).queue = s.queue := by
  cases c with
  | contribute key => cases h : s.readiness.table <;> simp [apply, step, h]
  | _ => rfl

end Session

/-! ### Moments -/

/-- An action and the session it meets. -/
structure Moment where
  before : Session
  action : Action

namespace Moment

/-- How the action ends. -/
def outcome (m : Moment) : Outcome Session (Option Task) := m.before.act m.action

/-- The session that the action leaves behind. -/
def after (m : Moment) : Session := m.outcome.state

/-- The task that enters the queue. -/
def submitted? (m : Moment) : Option Task :=
  match m.action, m.outcome.result with
  | .submit t, .ok _ => some t
  | _, _ => none

/-- The task that is handed over. -/
def returned? (m : Moment) : Option Task :=
  match m.outcome.result with
  | .ok t => t
  | .error _ => none

section

variable (s : Session)

@[simp] theorem outcome_submit (t : Task) :
    outcome ⟨s, .submit t⟩ = (s.submit t).map fun _ => none := rfl

@[simp] theorem outcome_dispatch : outcome ⟨s, .dispatch⟩ = s.dispatch := rfl

@[simp] theorem outcome_dispatchKey (key : Nat) :
    outcome ⟨s, .dispatchKey key⟩ = s.dispatchKey key := rfl

@[simp] theorem outcome_finish (len : Nat) :
    outcome ⟨s, .finish len⟩ = (s.finish len).map fun _ => none := rfl

/-- A submission hands no task over. -/
@[simp] theorem returned?_submit (t : Task) : returned? ⟨s, .submit t⟩ = none := by
  cases h : (s.submit t).result <;> simp [returned?, h, Except.map]

/-- A report hands no task over. -/
@[simp] theorem returned?_finish (len : Nat) : returned? ⟨s, .finish len⟩ = none := by
  cases h : (s.finish len).result <;> simp [returned?, h, Except.map]

@[simp] theorem queue_after_submit (t : Task) :
    (after ⟨s, .submit t⟩).queue = (s.queue.submit s.now t).state := rfl

@[simp] theorem queue_after_finish (len : Nat) :
    (after ⟨s, .finish len⟩).queue = (s.queue.finish len).state := rfl

@[simp] theorem queue_after_change (c : Change) : (after ⟨s, .change c⟩).queue = s.queue :=
  s.queue_apply c

end

/-- What one more moment shows comes last. -/
theorem filterMap_concat {α : Type} (f : Moment → Option α) (h : List Moment) (m : Moment) :
    (h ++ [m]).filterMap f = h.filterMap f ++ (f m).toList := by
  rw [List.filterMap_append]
  cases hm : f m <;> simp [hm]

end Moment

namespace Session

/-- The moments of a run. -/
def history (s : Session) : List Action → List Moment
  | [] => []
  | a :: actions => ⟨s, a⟩ :: history (s.act a).state actions

@[simp] theorem history_nil (s : Session) : s.history [] = [] := rfl

theorem history_append (as bs : List Action) (s : Session) :
    s.history (as ++ bs) = s.history as ++ (s.after as).history bs := by
  induction as generalizing s with
  | nil => rfl
  | cons a as ih => simp [history, ih]

theorem history_append_cons (as : List Action) (a : Action) (bs : List Action) (s : Session) :
    s.history (as ++ a :: bs) =
      s.history as ++ ⟨s.after as, a⟩ :: (Moment.after ⟨s.after as, a⟩).history bs := by
  rw [history_append]
  rfl

@[simp] theorem history_concat (as : List Action) (a : Action) (s : Session) :
    s.history (as ++ [a]) = s.history as ++ [⟨s.after as, a⟩] := by
  simp [history_append, history]

@[simp] theorem after_concat (as : List Action) (a : Action) (s : Session) :
    s.after (as ++ [a]) = Moment.after ⟨s.after as, a⟩ := by
  simp [after_append, Moment.after, Moment.outcome]

/-- What holds before the first moment and passes from the moments so far to one more holds along
every run. -/
theorem history_induction {I : List Moment → Session → Prop} {s : Session} (start : I [] s)
    (act : ∀ h m, I h m.before → I (h ++ [m]) m.after) (actions : List Action) :
    I (s.history actions) (s.after actions) := by
  induction actions using List.reverseRecOn with
  | nil => exact start
  | append_singleton as a ih => simpa using act _ ⟨s.after as, a⟩ ih

/-- Every moment of a run meets the session that the actions before its own lead to. -/
theorem exists_after_of_mem_history {actions : List Action} {s : Session} {m : Moment}
    (h : m ∈ s.history actions) :
    ∃ earlier, earlier ++ [m.action] <+: actions ∧ s.after earlier = m.before := by
  induction actions generalizing s with
  | nil => simp at h
  | cons a actions ih =>
    rcases List.mem_cons.mp h with rfl | h
    · exact ⟨[], List.cons_prefix_cons.mpr ⟨rfl, List.nil_prefix⟩, rfl⟩
    · obtain ⟨earlier, hpre, heq⟩ := ih h
      exact ⟨a :: earlier, List.cons_prefix_cons.mpr ⟨rfl, hpre⟩, heq⟩

/-! ### Calls as lists of actions -/

/-- The actions of a drain. -/
def drainActions (finishing : Bool) : Nat → Session → List Action
  | 0, _ => []
  | fuel + 1, s =>
    match s.dispatch with
    | ⟨.ok (some t), s⟩ =>
      if finishing then
        .dispatch :: .finish t.len :: drainActions finishing fuel (s.finish t.len).state
      else .dispatch :: drainActions finishing fuel s
    | _ => [.dispatch]

/-- The actions that a call consists of. Looking something up takes no action, and neither does
a call that finds nothing to act on. -/
def actionsOf (call : Call) (s : Session) : List Action :=
  match call with
  | .submit t => [.submit t]
  | .dispatch => [.dispatch]
  | .dispatchKey key => [.dispatchKey key]
  | .drain finishing => drainActions finishing (s.queue.size + 1) s
  | .finish index =>
    match s.released[index]? with
    | none => []
    | some t => [.finish t.len]
  | .finishBytes len => [.finish len]
  | .raise flag => [.change (.raise flag)]
  | .setProfiling context on => [.change (.setProfiling context on)]
  | .starts context _ _ => [.change (.openProfile context)]
  | .contribute key => [.change (.contribute key)]
  | .contributions _ => []
  | .advanceMicros us => [.change (.advance us)]
  | .advanceMillis ms =>
    match mulSigned ms 1000 with
    | .ok us => [.change (.advance us)]
    | .error _ => []
  | .counters => []

theorem after_drainActions (finishing : Bool) (fuel : Nat) (s : Session) :
    s.after (drainActions finishing fuel s) = (drainUpTo finishing fuel s).2 := by
  induction fuel generalizing s with
  | zero => rfl
  | succ fuel ih =>
    rcases hd : s.dispatch with ⟨_ | _ | t, s'⟩
    · simp [drainActions, drainUpTo, hd, act]
    · simp [drainActions, drainUpTo, hd, act]
    · cases finishing
      · simp [drainActions, drainUpTo, hd, act, ih]
      · rcases hf : s'.finish t.len with ⟨_ | _, s''⟩ <;>
          simp [drainActions, drainUpTo, hd, hf, act, ih]

/-- A call leaves the session that its actions leave. -/
theorem after_actionsOf (call : Call) (s : Session) :
    s.after (s.actionsOf call) = (s.step call).state := by
  cases call with
  -- the other calls are one action or none
  | drain finishing => exact after_drainActions finishing _ s
  | finish index => cases h : s.released[index]? <;> simp [actionsOf, step, act, h]
  | contributions key => cases h : s.readiness.table <;> simp [actionsOf, step, h]
  | advanceMillis ms =>
    cases h : mulSigned ms 1000 <;>
      simp [actionsOf, step, act, apply, TensorDispatch.advanceMillis, h, bind, Except.bind, pure,
        Except.pure]
  | _ => rfl

/-- A run of calls reaches only sessions that a run of actions reaches. -/
theorem exists_after_of_mem_run {calls : List Call} {s : Session} {o : Outcome Session Answer}
    (h : o ∈ s.run calls) : ∃ actions, s.after actions = o.state := by
  induction calls generalizing s with
  | nil => simp [run] at h
  | cons call calls ih =>
    rcases List.mem_cons.mp h with rfl | h
    · exact ⟨s.actionsOf call, after_actionsOf call s⟩
    · obtain ⟨actions, ha⟩ := ih h
      refine ⟨s.actionsOf call ++ actions, ?_⟩
      rw [after_append, after_actionsOf, ha]

end Session

end TensorDispatch
