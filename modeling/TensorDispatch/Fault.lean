import TensorDispatch.Number.Width
import TensorDispatch.Stage
import TensorDispatch.Strategy

/-!
# Faults

A call that breaks the contract of a dispatcher, or whose arithmetic leaves 64 bits, ends in a
**fault**. A fault is an answer, not the end of the run: an `Outcome` carries the state the call
leaves behind beside its result, so what a refused call had already changed stays visible.

`addSigned` and `mulSigned` are signed 64-bit arithmetic that faults on overflow. `checkList`
faults on a list that is too long for any memory.
-/

namespace TensorDispatch

/-- Why a call was refused. -/
inductive Fault
  | sumOverflow
  | differenceOverflow
  | productOverflow
  /-- A list would take more memory than there are addresses. -/
  | listTooLong
  /-- A submitted task has no name. -/
  | unnamedTask (key : Nat)
  /-- A task was asked for by key where credit decides what runs next. -/
  | keyedOnCredit (stage : Stage)
  /-- A task was asked for by key where a strategy decides what runs next. -/
  | keyedOnStrategy (stage : Stage) (strategy : Strategy)
  /-- The task with the requested key is not ready. -/
  | keyedUnready (name : String)
  /-- More credit is taken than is available. -/
  | creditOverdrawn (len available : Nat)
  /-- More credit is returned than is in flight. -/
  | creditOverreturned (len inFlight : Nat)
  deriving DecidableEq, Repr

/-- The wording of a fault. -/
def Fault.message : Fault → String
  | sumOverflow => "attempt to add with overflow"
  | differenceOverflow => "attempt to subtract with overflow"
  | productOverflow => "attempt to multiply with overflow"
  | listTooLong => "capacity overflow"
  | unnamedTask key => s!"submitted task with key {key} has an empty name"
  | keyedOnCredit stage => s!"keyed dispatch on credit-controlled {stage.name} queue"
  | keyedOnStrategy stage strategy =>
      s!"keyed dispatch on {stage.name} queue with {strategy.name} strategy"
  | keyedUnready name => s!"keyed dispatch of task {name} before it is ready"
  | creditOverdrawn len available =>
      s!"acquiring {len} bytes with only {available} available"
  | creditOverreturned len inFlight =>
      s!"returning {len} bytes but only {inFlight} are in flight"

/-- How a call on a state of type `σ` ends: with an answer or a fault, and in either case with
the state it leaves behind. -/
structure Outcome (σ α : Type) where
  result : Except Fault α
  state : σ

/-- The call is answered. -/
def Outcome.answered {σ α : Type} (a : α) (s : σ) : Outcome σ α := ⟨.ok a, s⟩

/-- The call is refused. -/
def Outcome.refused {σ α : Type} (f : Fault) (s : σ) : Outcome σ α := ⟨.error f, s⟩

/-- The outcome with its answer, if there is one, put differently. -/
def Outcome.map {σ α β : Type} (f : α → β) (o : Outcome σ α) : Outcome σ β :=
  ⟨o.result.map f, o.state⟩

/-- The same outcome seen in a larger state. -/
def Outcome.within {σ τ α : Type} (embed : σ → τ) (o : Outcome σ α) : Outcome τ α :=
  ⟨o.result, embed o.state⟩

/-- The call is answered, not refused. -/
def Outcome.IsAnswered {σ α : Type} (o : Outcome σ α) : Prop := ∃ a, o.result = .ok a

instance {σ α : Type} (o : Outcome σ α) : Decidable o.IsAnswered :=
  match h : o.result with
  | .ok a => isTrue ⟨a, h⟩
  | .error _ => isFalse fun ⟨_, h'⟩ => nomatch h.symm.trans h'

section

variable {σ τ α β : Type}

@[simp] theorem Outcome.result_answered (a : α) (s : σ) :
    (Outcome.answered a s).result = .ok a := rfl

@[simp] theorem Outcome.state_answered (a : α) (s : σ) : (Outcome.answered a s).state = s := rfl

@[simp] theorem Outcome.result_refused (f : Fault) (s : σ) :
    (Outcome.refused f s : Outcome σ α).result = .error f := rfl

@[simp] theorem Outcome.state_refused (f : Fault) (s : σ) :
    (Outcome.refused f s : Outcome σ α).state = s := rfl

@[simp] theorem Outcome.result_map (f : α → β) (o : Outcome σ α) :
    (o.map f).result = o.result.map f := rfl

@[simp] theorem Outcome.state_map (f : α → β) (o : Outcome σ α) : (o.map f).state = o.state := rfl

@[simp] theorem Outcome.result_within (embed : σ → τ) (o : Outcome σ α) :
    (o.within embed).result = o.result := rfl

@[simp] theorem Outcome.state_within (embed : σ → τ) (o : Outcome σ α) :
    (o.within embed).state = embed o.state := rfl

theorem Outcome.result_map_eq_error_iff {f : α → β} {o : Outcome σ α} {fault : Fault} :
    (o.map f).result = .error fault ↔ o.result = .error fault := by
  cases h : o.result <;> simp [h, Except.map]

@[simp] theorem Outcome.isAnswered_answered (a : α) (s : σ) :
    (Outcome.answered a s).IsAnswered := ⟨a, rfl⟩

@[simp] theorem Outcome.not_isAnswered_error (f : Fault) (s : σ) :
    ¬ (⟨.error f, s⟩ : Outcome σ α).IsAnswered := by
  rintro ⟨_, h⟩
  cases h

@[simp] theorem Outcome.not_isAnswered_refused (f : Fault) (s : σ) :
    ¬ (Outcome.refused f s : Outcome σ α).IsAnswered := Outcome.not_isAnswered_error f s

theorem Outcome.isAnswered_within (embed : σ → τ) (o : Outcome σ α) :
    (o.within embed).IsAnswered ↔ o.IsAnswered := .rfl

theorem Outcome.isAnswered_map (f : α → β) (o : Outcome σ α) :
    (o.map f).IsAnswered ↔ o.IsAnswered := by
  unfold IsAnswered
  cases h : o.result <;> simp [h, Except.map]

end

/-! ### Signed arithmetic -/

/-- The sum, if it fits the signed range. -/
def addSigned (a b : Int) : Except Fault Int :=
  if IsSigned (a + b) then .ok (a + b) else .error .sumOverflow

/-- The product, if it fits the signed range. -/
def mulSigned (a b : Int) : Except Fault Int :=
  if IsSigned (a * b) then .ok (a * b) else .error .productOverflow

theorem addSigned_of_isSigned {a b : Int} (h : IsSigned (a + b)) :
    addSigned a b = .ok (a + b) := if_pos h

theorem addSigned_eq_ok {a b c : Int} (h : addSigned a b = .ok c) : c = a + b := by
  unfold addSigned at h
  split at h <;> cases h
  rfl

theorem addSigned_of_not_isSigned {a b : Int} (h : ¬ IsSigned (a + b)) :
    addSigned a b = .error .sumOverflow := if_neg h

/-! ### Lists in memory -/

/-- The most bytes that one list may take: half of the addresses, in whole words. -/
def listBytes : Nat := 0x7ffffffffffffff8

/-- Whether a list of `count` items of `itemBytes` bytes each has a place in memory. -/
def FitsMemory (itemBytes count : Nat) : Prop := itemBytes * count ≤ listBytes

instance (itemBytes count : Nat) : Decidable (FitsMemory itemBytes count) :=
  inferInstanceAs (Decidable (_ ≤ _))

/-- Lets through a list that has a place in memory. -/
def checkList (itemBytes count : Nat) : Except Fault Unit :=
  if FitsMemory itemBytes count then .ok () else .error .listTooLong

end TensorDispatch
