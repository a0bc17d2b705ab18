import TensorDispatch.Fault
import TensorDispatch.Task

/-!
# Profiling

A **profile** collects the starts of the tasks that share it, while its switch is on. Profiles
are kept by name; `Profiles.ensure` gives a name its profile when the name is first used. Starts
are read off a **clock** of signed microseconds, which moves only when told to: a move by
microseconds wraps around at 64 bits, a move by milliseconds faults when the conversion to
microseconds does not fit.
-/

namespace TensorDispatch

/-! ### The clock -/

/-- The reading after a move by `us` microseconds. -/
def advanceMicros (us clock : Int) : Int := wrapSigned (clock + us)

/-- The reading after a move by `ms` milliseconds. -/
def advanceMillis (ms clock : Int) : Except Fault Int := do
  let us ← mulSigned ms 1000
  return advanceMicros us clock

/-! ### Profiles -/

/-- The start of one partition on one stage. -/
structure StartRecord where
  key : Nat
  stage : Stage
  startMicros : Int
  deriving DecidableEq, Repr

/-- The recorded starts of the tasks of a tensor, the oldest first. -/
structure Profile where
  enabled : Bool := false
  log : List StartRecord := []
  deriving DecidableEq, Repr

namespace Profile

/-- Adds a start, if the switch is on. -/
def record (start : StartRecord) (p : Profile) : Profile :=
  if p.enabled then { p with log := p.log ++ [start] } else p

/-- The starts of one key on one stage, the oldest first. -/
def starts (key : Nat) (stage : Stage) (p : Profile) : List StartRecord :=
  p.log.filter fun start => start.key == key && start.stage == stage

theorem starts_record (start : StartRecord) (p : Profile) (key : Nat) (stage : Stage) :
    (p.record start).starts key stage =
      p.starts key stage ++
        if p.enabled ∧ start.key = key ∧ start.stage = stage then [start] else [] := by
  by_cases he : p.enabled <;> by_cases hk : start.key = key <;>
    by_cases hs : start.stage = stage <;> simp [record, starts, he, hk, hs]

end Profile

/-- Profiles by name. -/
abbrev Profiles := List (String × Profile)

namespace Profiles

/-- The profile of a name; one that was never opened is empty and switched off. -/
def named (name : String) (ps : Profiles) : Profile := (ps.lookup name).getD {}

/-- Gives an unknown name a profile with this switch; a known name keeps its own. -/
def ensure (name : String) (enabled : Bool) (ps : Profiles) : Profiles :=
  if (ps.lookup name).isSome then ps else ps ++ [(name, { enabled := enabled })]

/-- Changes the profile of a name, if it has one. -/
def update (name : String) (f : Profile → Profile) (ps : Profiles) : Profiles :=
  ps.map fun (other, p) => if other == name then (other, f p) else (other, p)

/-- Records the start of a task on a stage in the profile the task names. -/
def recordStart (t : Task) (stage : Stage) (clock : Int) (ps : Profiles) : Profiles :=
  match t.context with
  | none => ps
  | some name => ps.update name (·.record ⟨t.key, stage, clock⟩)

end Profiles

end TensorDispatch
