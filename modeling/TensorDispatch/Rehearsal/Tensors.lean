import TensorDispatch.Config
import TensorDispatch.Fault
import TensorDispatch.Task

/-!
# Synthetic tensors

A rehearsal needs tensors. Their **priorities** come from the schedule, one tensor a token, and
the tensors beyond the tokens get fresh priorities below the lowest of them; without a schedule
the priorities count down from zero. Each tensor is cut into **partitions**, and the key of a
partition holds the index of its tensor above the lowest sixteen bits and its own index in them.

The priorities are refused before they are built if no memory could hold them. The list of tasks
grows tensor by tensor, so what is refused is a first tensor that no memory could hold.
-/

namespace TensorDispatch.Rehearsal

/-- The priorities `top`, `top - 1`, …, `n` of them. -/
def countDown (top : Int) (n : Nat) : List Int :=
  (List.range n).map fun (i : Nat) => top - i

/-- A count of tensors as a signed number; one that does not fit is negative and counts none. -/
def signedCount (n : Nat) : Nat := (wrapSigned n).toNat

/-- The bytes that a priority takes. -/
def priorityBytes : Nat := 8

/-- The priorities of the tensors of one iteration; `fallback` tells their number where no
schedule does. -/
def tensorPriorities (config : QueueConfig) (fallback : Nat) : Except Fault (List Int) :=
  match config.schedule with
  | none => do
    let count := signedCount fallback
    checkList priorityBytes count
    return countDown 0 count
  | some schedule => do
    let floor := schedule.tokens.min?.getD 0
    let extra := signedCount (schedule.totalTensors - schedule.tokens.length)
    checkList priorityBytes (schedule.tokens.length + extra)
    if IsSigned (floor - extra) then return schedule.tokens ++ countDown (floor - 1) extra
    else .error .differenceOverflow

/-- Bits of a key that hold the index of the partition. -/
def partitionBits : Nat := 16

/-- The key of a partition: the index of its tensor, moved up within 64 bits, and its own. -/
def partitionKey (tensor partition : Nat) : Nat :=
  (tensor <<< partitionBits) % wordBound ||| partition

/-- The partition that a key tells. -/
def partitionOfKey (key : Nat) : Nat := key % 0x10000

/-- The name of a tensor; the first one may be named after the head of an iteration. -/
def tensorName (beginName : Option String) (tensor : Nat) : String :=
  match beginName, tensor with
  | some begin, 0 => s!"{begin}_gradient"
  | _, _ => s!"tensor{tensor}_gradient"

/-- The partitions of one tensor. -/
def partitionsOf (partitions len : Nat) (beginName : Option String) (tensor : Nat)
    (priority : Int) : List Task :=
  let name := tensorName beginName tensor
  let payload := Payload.ofTensorName name
  (List.range partitions).map fun partition =>
    { name, payload, priority, len, partitions, key := partitionKey tensor partition }

/-- Every partition of every tensor, in the order of the priorities. A tensor has at least one
partition. -/
def synthesize (priorities : List Int) (partitions len : Nat) (beginName : Option String) :
    List Task :=
  (priorities.zipIdx.map fun (priority, tensor) =>
    partitionsOf (max 1 partitions) len beginName tensor priority).flatten

/-- The bytes that a task takes. -/
def taskBytes : Nat := 88

/-- The partitions of all tensors, if those of the first one have a place in memory. -/
def checkedTasks (priorities : List Int) (partitions len : Nat) (beginName : Option String) :
    Except Fault (List Task) := do
  unless priorities.isEmpty do
    checkList taskBytes (max 1 partitions)
  return synthesize priorities partitions len beginName

theorem length_countDown (top : Int) (n : Nat) : (countDown top n).length = n := by
  simp [countDown]

end TensorDispatch.Rehearsal
