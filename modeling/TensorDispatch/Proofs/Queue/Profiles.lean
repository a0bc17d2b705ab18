import TensorDispatch.Proofs.Queue.Counters

/-!
# The order of profiles decides nothing

Profiles are asked for by name, so the order in which they were opened cannot be told.

* `Profiles.lookup_ensure`, `Profiles.lookup_update` — what is found under a name afterwards;
* `Session.content` — a session with its profiles by name alone;
* `Session.step_content` — a call ends alike for sessions of one content;
* `Session.displays` — the answers to a list of calls and what the queue shows after each of them.
  Sessions of one content display the same (`Session.displays_eq_of_content_eq`).
-/

namespace TensorDispatch

/-! ### Profiles by name -/

namespace Profiles

/-- What is found under each name. -/
def byName (ps : Profiles) (name : String) : Option Profile := ps.lookup name

theorem lookup_ensure (name : String) (enabled : Bool) (ps : Profiles) (other : String) :
    (ps.ensure name enabled).lookup other =
      (ps.lookup other).or (if other = name then some { enabled := enabled } else none) := by
  unfold ensure
  split
  · rename_i hknown
    by_cases hname : other = name
    · obtain ⟨p, hp⟩ := Option.isSome_iff_exists.mp hknown
      simp [hname, hp]
    · simp [hname]
  · rw [List.lookup_append]
    by_cases hname : other = name
    · simp [hname]
    · simp [List.lookup_cons, beq_eq_false_iff_ne.mpr hname, hname]

theorem lookup_update (name : String) (f : Profile → Profile) (ps : Profiles) (other : String) :
    (ps.update name f).lookup other =
      (ps.lookup other).map fun p => if other = name then f p else p := by
  induction ps with
  | nil => rfl
  | cons entry ps ih =>
    obtain ⟨key, p⟩ := entry
    have hcons : update name f ((key, p) :: ps) =
        (key, if key = name then f p else p) :: update name f ps := by
      by_cases hname : key = name <;> simp [update, hname]
    rw [hcons, List.lookup_cons, List.lookup_cons, ih]
    by_cases hkey : other = key
    · simp [hkey]
    · simp [beq_eq_false_iff_ne.mpr hkey]

variable {ps ps' : Profiles}

theorem byName_ensure (h : ps.byName = ps'.byName) (name : String) (enabled : Bool) :
    (ps.ensure name enabled).byName = (ps'.ensure name enabled).byName := by
  funext other
  have hother : ps.lookup other = ps'.lookup other := congrFun h other
  simp only [byName, lookup_ensure, hother]

theorem byName_update (h : ps.byName = ps'.byName) (name : String) (f : Profile → Profile) :
    (ps.update name f).byName = (ps'.update name f).byName := by
  funext other
  have hother : ps.lookup other = ps'.lookup other := congrFun h other
  simp only [byName, lookup_update, hother]

theorem byName_recordStart (h : ps.byName = ps'.byName) (t : Task) (stage : Stage) (clock : Int) :
    (ps.recordStart t stage clock).byName = (ps'.recordStart t stage clock).byName := by
  unfold recordStart
  split
  · exact h
  · exact byName_update h _ _

theorem named_eq_of_byName (h : ps.byName = ps'.byName) (name : String) :
    ps.named name = ps'.named name := by
  have hname : ps.lookup name = ps'.lookup name := congrFun h name
  simp only [named, hname]

end Profiles

/-! ### Sessions -/

namespace Session

/-- The session with its profiles by name alone. -/
def content (s : Session) : Session × (String → Option Profile) :=
  ({ s with profiles := [] }, s.profiles.byName)

variable {s s' : Session}

theorem content_eq_iff :
    s.content = s'.content ↔
      ∃ profiles, s = { s' with profiles } ∧ profiles.byName = s'.profiles.byName := by
  constructor
  · intro h
    obtain ⟨queue, readiness, profiles, clock, wallClock, released⟩ := s
    simp only [content, Prod.mk.injEq, mk.injEq] at h
    obtain ⟨⟨rfl, rfl, -, rfl, rfl, rfl⟩, hprofiles⟩ := h
    exact ⟨profiles, rfl, hprofiles⟩
  · rintro ⟨profiles, rfl, hprofiles⟩
    simp only [content, hprofiles]

theorem handOver_content (h : s.content = s'.content) (t : Task) :
    (handOver t s).within content = (handOver t s').within content := by
  obtain ⟨profiles, rfl, hprofiles⟩ := content_eq_iff.mp h
  simp only [handOver]
  split
  · rename_i queue _
    refine Outcome.within_eq_iff.mpr ⟨rfl, content_eq_iff.mpr ⟨_, rfl, ?_⟩⟩
    exact Profiles.byName_recordStart hprofiles _ _ _
  · exact Outcome.within_eq_iff.mpr ⟨rfl, content_eq_iff.mpr ⟨_, rfl, hprofiles⟩⟩

theorem dispatch_content (h : s.content = s'.content) :
    s.dispatch.within content = s'.dispatch.within content := by
  obtain ⟨profiles, rfl, hprofiles⟩ := content_eq_iff.mp h
  simp only [dispatch, now]
  split
  · exact Outcome.within_eq_iff.mpr ⟨rfl, content_eq_iff.mpr ⟨_, rfl, hprofiles⟩⟩
  · refine handOver_content ?_ _
    exact content_eq_iff.mpr ⟨_, rfl, hprofiles⟩
  · exact Outcome.within_eq_iff.mpr ⟨rfl, content_eq_iff.mpr ⟨_, rfl, hprofiles⟩⟩

theorem dispatchKey_content (h : s.content = s'.content) (key : Nat) :
    (s.dispatchKey key).within content = (s'.dispatchKey key).within content := by
  obtain ⟨profiles, rfl, hprofiles⟩ := content_eq_iff.mp h
  simp only [dispatchKey]
  split
  · exact Outcome.within_eq_iff.mpr ⟨rfl, content_eq_iff.mpr ⟨_, rfl, hprofiles⟩⟩
  · refine handOver_content ?_ _
    exact content_eq_iff.mpr ⟨_, rfl, hprofiles⟩
  · exact Outcome.within_eq_iff.mpr ⟨rfl, content_eq_iff.mpr ⟨_, rfl, hprofiles⟩⟩

theorem submit_content (h : s.content = s'.content) (t : Task) :
    (s.submit t).within content = (s'.submit t).within content := by
  obtain ⟨profiles, rfl, hprofiles⟩ := content_eq_iff.mp h
  refine Outcome.within_eq_iff.mpr ⟨rfl, content_eq_iff.mpr ⟨_, rfl, ?_⟩⟩
  simp only [submit, Outcome.state_within]
  split
  · exact hprofiles
  · exact Profiles.byName_ensure hprofiles _ _

theorem finish_content (h : s.content = s'.content) (len : Nat) :
    (s.finish len).within content = (s'.finish len).within content := by
  obtain ⟨profiles, rfl, hprofiles⟩ := content_eq_iff.mp h
  exact Outcome.within_eq_iff.mpr ⟨rfl, content_eq_iff.mpr ⟨_, rfl, hprofiles⟩⟩

theorem drainUpTo_content (h : s.content = s'.content) (finishing : Bool) (fuel : Nat) :
    (drainUpTo finishing fuel s).1 = (drainUpTo finishing fuel s').1 ∧
      (drainUpTo finishing fuel s).2.content = (drainUpTo finishing fuel s').2.content := by
  induction fuel generalizing s s' with
  | zero => exact ⟨rfl, h⟩
  | succ fuel ih =>
    have hdispatch := Outcome.within_eq_iff.mp (dispatch_content h)
    rcases hd : s.dispatch with ⟨result, s₁⟩
    rcases hd' : s'.dispatch with ⟨result', s₁'⟩
    rw [hd, hd'] at hdispatch
    obtain ⟨rfl, hcontent⟩ := hdispatch
    rcases result with f | _ | t
    · simpa only [drainUpTo, hd, hd', true_and] using hcontent
    · simpa only [drainUpTo, hd, hd', true_and] using hcontent
    · cases finishing with
      | false =>
        obtain ⟨hitems, hlast⟩ := ih hcontent
        simp only [drainUpTo, hd, hd', Bool.false_eq_true, if_false]
        exact ⟨congrArg _ hitems, hlast⟩
      | true =>
        have hfinish := Outcome.within_eq_iff.mp (finish_content hcontent t.len)
        rcases hf : s₁.finish t.len with ⟨result, s₂⟩
        rcases hf' : s₁'.finish t.len with ⟨result', s₂'⟩
        rw [hf, hf'] at hfinish
        obtain ⟨rfl, hcontent⟩ := hfinish
        obtain ⟨hitems, hlast⟩ := ih hcontent
        cases result with
        | error f =>
          simp only [drainUpTo, hd, hd', hf, hf', if_true]
          exact ⟨congrArg (_ :: _ :: ·) hitems, hlast⟩
        | ok u =>
          simp only [drainUpTo, hd, hd', hf, hf', if_true]
          exact ⟨congrArg _ hitems, hlast⟩

/-- An outcome whose answer is put differently is alike where the outcome is. -/
private theorem map_content {α β : Type} {o o' : Outcome Session α} (f : α → β)
    (h : o.within content = o'.within content) :
    (o.map f).within content = (o'.map f).within content := by
  obtain ⟨hresult, hstate⟩ := Outcome.within_eq_iff.mp h
  exact Outcome.within_eq_iff.mpr ⟨congrArg (Except.map f) hresult, hstate⟩

/-- A call ends alike for sessions of one content. -/
theorem step_content (h : s.content = s'.content) (call : Call) :
    (s.step call).within content = (s'.step call).within content := by
  have hsame := h
  obtain ⟨profiles, rfl, hprofiles⟩ := content_eq_iff.mp h
  cases call with
  | submit t => exact map_content _ (submit_content hsame t)
  | dispatch => exact map_content _ (dispatch_content hsame)
  | dispatchKey key => exact map_content _ (dispatchKey_content hsame key)
  | drain finishing =>
    obtain ⟨hitems, hlast⟩ := drainUpTo_content hsame finishing (s'.queue.size + 1)
    exact Outcome.within_eq_iff.mpr ⟨congrArg (Except.ok <| Answer.drained ·) hitems, hlast⟩
  | finish index =>
    simp only [step]
    split
    · exact Outcome.within_eq_iff.mpr ⟨rfl, hsame⟩
    · exact map_content _ (finish_content hsame _)
  | finishBytes len => exact map_content _ (finish_content hsame len)
  | setProfiling context on =>
    have hopened := Profiles.byName_ensure hprofiles context false
    have hswitched := Profiles.byName_update hopened context ({ · with enabled := on })
    refine Outcome.within_eq_iff.mpr ⟨?_, content_eq_iff.mpr ⟨_, rfl, hswitched⟩⟩
    simp only [step, Outcome.result_answered, Profiles.named_eq_of_byName hswitched]
  | starts context key stage =>
    have hopened := Profiles.byName_ensure hprofiles context false
    refine Outcome.within_eq_iff.mpr ⟨?_, content_eq_iff.mpr ⟨_, rfl, hopened⟩⟩
    simp only [step, Outcome.result_answered, Profiles.named_eq_of_byName hopened]
  | contribute key =>
    simp only [step]
    split
    · exact Outcome.within_eq_iff.mpr ⟨rfl, hsame⟩
    · exact Outcome.within_eq_iff.mpr ⟨rfl, content_eq_iff.mpr ⟨_, rfl, hprofiles⟩⟩
  | contributions key =>
    simp only [step]
    split <;> exact Outcome.within_eq_iff.mpr ⟨rfl, hsame⟩
  | advanceMillis ms =>
    simp only [step]
    split
    · exact Outcome.within_eq_iff.mpr ⟨rfl, content_eq_iff.mpr ⟨_, rfl, hprofiles⟩⟩
    · exact Outcome.within_eq_iff.mpr ⟨rfl, hsame⟩
  | _ => exact Outcome.within_eq_iff.mpr ⟨rfl, content_eq_iff.mpr ⟨_, rfl, hprofiles⟩⟩

/-! ### What callers are shown -/

/-- The answer to each of the calls, and what the queue shows after it. -/
def displays (s : Session) (calls : List Call) : List (Except Fault Answer × Snapshot) :=
  (s.run calls).map fun o => (o.result, o.state.queue.snapshot)

/-- Sessions of one content display the same. -/
theorem displays_eq_of_content_eq (h : s.content = s'.content) (calls : List Call) :
    s.displays calls = s'.displays calls := by
  induction calls generalizing s s' with
  | nil => rfl
  | cons call calls ih =>
    obtain ⟨hresult, hstate⟩ := Outcome.within_eq_iff.mp (step_content h call)
    have hqueue : (s.step call).state.queue = (s'.step call).state.queue :=
      congrArg (fun c => c.1.queue) hstate
    have hlater := ih hstate
    simp only [displays, run, List.map_cons, hresult, hqueue] at hlater ⊢
    rw [hlater]

end Session

end TensorDispatch
