import TensorDispatch.Proofs.Queue.Frames
import TensorDispatch.Proofs.Queue.Profiles

/-!
# The log of a profile

A profile is shared by any number of tasks, its switch may be turned at any time, and it keeps the
starts of all keys on all stages in one list. What it shows of one key on one stage is the history
of the queue all the same.

* `Moment.records` — an action that hands a task over records its start, and no other action touches
  a log;
* `Moment.startedAt?` — the reading that a moment adds to the starts of a key in a context;
* `Moment.startsOf_after` — what one action adds to the starts of a key on a stage;
* `Session.starts_eq_departures` — the starts of a key on a stage are the departures of its tasks
  while the switch was on, in order.
-/

namespace TensorDispatch

/-! ### Profiles by name -/

namespace Profiles

/-- Opening a profile records nothing. -/
theorem log_ensure (name : String) (enabled : Bool) (ps : Profiles) (context : String) :
    ((ps.ensure name enabled).named context).log = (ps.named context).log := by
  unfold named
  rw [lookup_ensure]
  cases ps.lookup context <;> by_cases hname : context = name <;> simp [hname]

/-- A change that spares logs records nothing. -/
theorem log_update {f : Profile → Profile} (hf : ∀ p, (f p).log = p.log) (name : String)
    (ps : Profiles) (context : String) :
    ((ps.update name f).named context).log = (ps.named context).log := by
  unfold named
  rw [lookup_update]
  cases ps.lookup context <;> by_cases hname : context = name <;> simp [hname, hf]

/-- A start is recorded in the context that the task names, and in no other. A context without a
profile is switched off, so nothing is lost there. -/
theorem named_recordStart (t : Task) (stage : Stage) (clock : Int) (ps : Profiles)
    (context : String) :
    (ps.recordStart t stage clock).named context =
      if t.context = some context then (ps.named context).record ⟨t.key, stage, clock⟩
      else ps.named context := by
  unfold recordStart named
  split
  · rename_i hcontext
    simp [hcontext]
  · rename_i name hcontext
    rw [lookup_update]
    by_cases hname : context = name
    · cases ps.lookup context <;> simp [hcontext, hname, Profile.record]
    · cases ps.lookup context <;> simp [hcontext, hname, Ne.symm hname]

end Profiles

/-! ### One action -/

namespace Session

/-- The recorded starts of one key on one stage. -/
def startsOf (context : String) (key : Nat) (stage : Stage) (s : Session) : List StartRecord :=
  (s.profiles.named context).starts key stage

/-- Looking starts up shows the log. -/
theorem result_starts (context : String) (key : Nat) (stage : Stage) (s : Session) :
    (s.step (.starts context key stage)).result =
      .ok (.starts (s.startsOf context key stage)) := by
  simp only [step, Outcome.result_answered, startsOf, Profile.starts, Profiles.log_ensure]

/-- A task that is handed over has its start recorded, and one that is not leaves the profiles as
they are. -/
theorem profiles_handOver (t : Task) (s : Session) :
    (∃ u, (handOver t s).result = .ok (some u) ∧
      (handOver t s).state.profiles = s.profiles.recordStart u s.queue.stage s.now) ∨
    (∃ f, (handOver t s).result = .error f) ∧ (handOver t s).state.profiles = s.profiles := by
  simp only [handOver, Queue.release]
  cases s.queue.credit.acquire t.len with
  | ok credit => exact .inl ⟨_, rfl, rfl⟩
  | error f => exact .inr ⟨⟨f, rfl⟩, rfl⟩

/-- A submission may open a profile, and records nothing. -/
theorem log_submit (t : Task) (s : Session) (context : String) :
    ((s.submit t).state.profiles.named context).log = (s.profiles.named context).log := by
  simp only [submit, Outcome.state_within]
  split
  · rfl
  · exact Profiles.log_ensure _ _ _ _

/-- What surrounds a queue may open a profile or turn its switch, and records nothing. -/
theorem log_apply (c : Change) (s : Session) (context : String) :
    ((s.apply c).profiles.named context).log = (s.profiles.named context).log := by
  cases c with
  | contribute key => cases h : s.readiness.table <;> simp [apply, step, h]
  | openProfile name => exact Profiles.log_ensure _ _ _ _
  | setProfiling name on =>
    exact (Profiles.log_update (f := fun p => { p with enabled := on }) (fun _ => rfl) _ _ _).trans
      (Profiles.log_ensure _ _ _ _)
  | _ => rfl

end Session

namespace Moment

variable {m : Moment}

/-- What an action leaves in the profiles: the start of the task that it hands over, if it hands one
over, and otherwise the logs as they were. -/
def Records (m : Moment) : Prop :=
  (∃ t, m.returned? = some t ∧
    m.after.profiles = m.before.profiles.recordStart t m.before.queue.stage m.before.now) ∨
  m.returned? = none ∧
    ∀ context, (m.after.profiles.named context).log = (m.before.profiles.named context).log

/-- An action that ends by handing over what the queue gave up records what it hands over. -/
private theorem records_handOver {s : Session} {t : Task}
    (hprofiles : s.profiles = m.before.profiles) (hnow : s.now = m.before.now)
    (hsetup : s.queue.setup = m.before.queue.setup)
    (h : m.outcome = Session.handOver t s) : m.Records := by
  have hstage : s.queue.stage = m.before.queue.stage := congrArg Prod.fst hsetup
  rw [Records, after, returned?, h, ← hprofiles, ← hnow, ← hstage]
  rcases s.profiles_handOver t with ⟨u, hresult, hafter⟩ | ⟨⟨f, hresult⟩, hafter⟩
  · exact .inl ⟨u, by rw [hresult], hafter⟩
  · exact .inr ⟨by rw [hresult], fun context => by rw [hafter]⟩

/-- An action records the start of the task that it hands over, and nothing else. -/
theorem records (m : Moment) : m.Records := by
  obtain ⟨s, a⟩ := m
  cases a with
  | submit t => exact .inr ⟨returned?_submit s t, s.log_submit t⟩
  | dispatch =>
    have hsetup := s.queue.setup_choose s.readiness s.now
    rcases hchoose : s.queue.choose s.readiness s.now with ⟨f | _ | t, q⟩
    · exact .inr <| by simp [returned?, after, Session.dispatch, hchoose]
    · exact .inr <| by simp [returned?, after, Session.dispatch, hchoose]
    · rw [hchoose] at hsetup
      exact records_handOver (t := t)
        (s := { s with
          queue := q
          readiness := if q.gated then s.readiness.acknowledge t.key else s.readiness })
        rfl rfl hsetup (by simp [Session.dispatch, hchoose])
  | dispatchKey key =>
    have hsetup := s.queue.setup_chooseKey s.readiness key
    rcases hchoose : s.queue.chooseKey s.readiness key with ⟨f | _ | t, q⟩
    · exact .inr <| by simp [returned?, after, Session.dispatchKey, hchoose]
    · exact .inr <| by simp [returned?, after, Session.dispatchKey, hchoose]
    · rw [hchoose] at hsetup
      exact records_handOver (s := { s with queue := q }) (t := t) rfl rfl hsetup
        (by simp [Session.dispatchKey, hchoose])
  | finish len => exact .inr ⟨returned?_finish s len, fun _ => rfl⟩
  | change c => exact .inr ⟨rfl, s.log_apply c⟩

/-- The reading at which a task of this key and context is handed over while the switch of the
context is on. -/
def startedAt? (context : String) (key : Nat) (m : Moment) : Option Int :=
  m.returned?.bind fun t =>
    if t.key = key ∧ t.context = some context ∧ (m.before.profiles.named context).enabled then
      some m.before.now
    else none

/-- An action adds to the starts of a key on the stage of the queue what it starts of that key, and
nothing on other stages. -/
theorem startsOf_after (m : Moment) (context : String) (key : Nat) (stage : Stage) :
    m.after.startsOf context key stage = m.before.startsOf context key stage ++
      if stage = m.before.queue.stage then
        (m.startedAt? context key).toList.map fun start => ⟨key, stage, start⟩
      else [] := by
  unfold Session.startsOf
  rcases m.records with ⟨t, hreturned, hprofiles⟩ | ⟨hreturned, hlog⟩
  · rw [hprofiles, Profiles.named_recordStart]
    by_cases hcontext : t.context = some context
    · rw [if_pos hcontext, Profile.starts_record]
      by_cases hstage : stage = m.before.queue.stage
      · by_cases henabled : (m.before.profiles.named context).enabled <;>
          by_cases hkey : t.key = key <;>
            simp [startedAt?, hreturned, hcontext, hstage, henabled, hkey]
      · simp [hstage, Ne.symm hstage]
    · simp [startedAt?, hreturned, hcontext]
  · simp [startedAt?, hreturned, Profile.starts, hlog]

/-- An action that hands over no task of this key and context changes none of its starts. -/
theorem startsOf_after_of_other {context : String} {key : Nat}
    (h : ∀ t, m.returned? = some t → ¬ (t.key = key ∧ t.context = some context)) (stage : Stage) :
    m.after.startsOf context key stage = m.before.startsOf context key stage := by
  have hnone : m.startedAt? context key = none := by
    cases hreturned : m.returned? with
    | none => simp [startedAt?, hreturned]
    | some t =>
      have hother := h t hreturned
      simp only [startedAt?, hreturned, Option.bind_some]
      exact if_neg fun hstart => hother ⟨hstart.1, hstart.2.1⟩
  simp [startsOf_after, hnone]

end Moment

/-! ### A whole run -/

namespace Session

/-- The starts of a key on the stage of the queue are the readings at which its tasks left, as far
as the switch of the context was on when they did, in order; on other stages there are none. An
action that hands over no task of the key and the context, be it a submission, an empty poll, a
report, a refused dispatch, a change of a switch or a departure of some other task, leaves these
starts as they are. -/
theorem starts_eq_departures {s : Session}
    (hempty : ∀ context, (s.profiles.named context).log = []) (actions : List Action)
    (context : String) (key : Nat) (stage : Stage) :
    let readings := (s.history actions).filterMap (Moment.startedAt? context key)
    ((s.after actions).step (.starts context key stage)).result =
        .ok (.starts <|
          if stage = s.queue.stage then readings.map fun start => ⟨key, stage, start⟩ else []) ∧
      ∀ m ∈ s.history actions,
        (∀ t, m.returned? = some t → ¬ (t.key = key ∧ t.context = some context)) →
        m.after.startsOf context key stage = m.before.startsOf context key stage := by
  intro readings
  refine ⟨?_, fun m _ hother => m.startsOf_after_of_other hother stage⟩
  -- the invariant is the statement for the moments so far, with the stage of the queue kept
  have hrun : (s.after actions).queue.stage = s.queue.stage ∧
      (s.after actions).startsOf context key stage =
        if stage = s.queue.stage then readings.map fun start => ⟨key, stage, start⟩ else [] := by
    refine history_induction
      (I := fun h s' => s'.queue.stage = s.queue.stage ∧
        s'.startsOf context key stage =
          if stage = s.queue.stage then
            (h.filterMap (Moment.startedAt? context key)).map fun start => ⟨key, stage, start⟩
          else [])
      ⟨rfl, ?_⟩ (fun h m hm => ⟨?_, ?_⟩) actions
    · simp [startsOf, Profile.starts, hempty]
    · exact (congrArg Prod.fst m.setup_after).trans hm.1
    · rw [m.startsOf_after, hm.2, hm.1, Moment.filterMap_concat]
      split <;> simp
  rw [result_starts, hrun.2]

/-- A session around a fresh queue that scans for its tasks on the push stage. -/
def plainPush : Session where
  queue :=
    { stage := .push, strategy := .plain, gated := false, scanned := { ordered := false }
      credit := .unmetered, policy := .plain }

/-- A partition of a tensor that shares its context with another one. -/
def sharedTask (key : Nat) (flag : Option String) : Task :=
  { name := "conv", key, priority := 0, len := 8, flag, context := some "layer" }

/-- Of the tasks of one key, one leaves while the switch is on, one while it is off, one is lost to
a dispatch before it is ready, and one is taken by its key. -/
def sharedRun : List Action :=
  [.submit (sharedTask 1 none), .submit (sharedTask 1 none), .submit (sharedTask 2 none),
    .submit (sharedTask 1 (some "ready")), .change (.advance 5), .dispatch,
    .change (.setProfiling "layer" false), .change (.advance 2), .dispatch,
    .change (.setProfiling "layer" true), .dispatch, .dispatchKey 1,
    .submit (sharedTask 1 none), .change (.advance 4), .dispatchKey 1]

theorem starts_eq_departures_sharedRun :
    Queue.create .push {} {} = .ok plainPush.queue ∧
      (∀ context, (plainPush.profiles.named context).log = []) ∧
      ((plainPush.after sharedRun).step (.starts "layer" 1 .push)).result =
        .ok (.starts [⟨1, .push, 5⟩, ⟨1, .push, 11⟩]) := by
  have hempty : ∀ context, (plainPush.profiles.named context).log = [] := fun _ => rfl
  have hreadings :
      (plainPush.history sharedRun).filterMap (Moment.startedAt? "layer" 1) = [5, 11] := by
    decide +kernel
  have hstarts := (starts_eq_departures hempty sharedRun "layer" 1 .push).1
  rw [hreadings] at hstarts
  exact ⟨rfl, hempty, hstarts⟩

end Session

end TensorDispatch
