import TensorDispatch.Config
import TensorDispatch.Yaml.Value

/-!
# Configuration documents

The configuration that a YAML document describes. A record is a mapping from field names to
values, in any order: a field that is not known is ignored with whatever it holds, a known one
may be given once, and one that is left out has its default or, if it has none, is missing. A
name with nothing written behind it stands for a record or a list without contents.
-/

namespace TensorDispatch.Document

open Yaml (Node)

/-! ### Scalars and lists -/

/-- The text of a scalar, however it is written. -/
def text? : Node → Option String
  | .scalar _ s => some s
  | _ => none

/-- The text of a plain scalar. -/
def plain? : Node → Option String
  | .scalar true s => some s
  | _ => none

/-- A natural number below the bound. -/
def nat? (bound : Nat) (node : Node) : Option Nat :=
  (plain? node >>= Yaml.Value.unsigned?).filter (· < bound)

/-- A number in the signed 64-bit range. -/
def int? (node : Node) : Option Int :=
  (plain? node >>= Yaml.Value.integer?).filter fun n => IsSigned n

/-- A double. -/
def float? (node : Node) : Option Float := plain? node >>= Yaml.Value.float?

/-- A truth value. -/
def bool? (node : Node) : Option Bool := plain? node >>= Yaml.Value.bool?

/-- A value that may be absent. -/
def optional? {α : Type} (read : Node → Option α) (node : Node) : Option (Option α) :=
  if (plain? node).any Yaml.Value.isAbsent then some none else (read node).map some

/-- A list of values. -/
def list? {α : Type} (read : Node → Option α) : Node → Option (List α)
  | .sequence items => items.mapM read
  | node => if plain? node = some "" then some [] else none

/-! ### Records -/

/-- The entries of a record, each under its name. -/
def fields? : Node → Option (List (String × Node))
  | .mapping entries => entries.mapM fun (key, value) => (text? key).map (·, value)
  | node => if plain? node = some "" then some [] else none

/-- The value of a field that may be left out. It may not be given twice. -/
def field? {α : Type} (fields : List (String × Node)) (name : String) (dflt : α)
    (read : Node → Option α) : Option α :=
  match fields.filter (·.1 == name) with
  | [] => some dflt
  | [(_, node)] => read node
  | _ => none

/-- The value of a field that may not be left out. -/
def required? {α : Type} (fields : List (String × Node)) (name : String)
    (read : Node → Option α) : Option α :=
  (field? fields name none fun node => (read node).map some).join

/-- A schedule. -/
def schedule? (node : Node) : Option Schedule := do
  let fields ← fields? node
  return {
    tokens := ← required? fields "tokens" (list? int?)
    boundary := ← required? fields "boundary" int?
    totalTensors := ← required? fields "total-tensors" (nat? wordBound) }

/-- A window plan. -/
def window? (node : Node) : Option WindowPlan := do
  let fields ← fields? node
  let plan : WindowPlan := {
    backwardMillis := ← required? fields "backward-ms" (list? float?) }
  return { plan with
    batchSize := ← field? fields "batch-size" plan.batchSize (nat? halfWordBound)
    scale := ← field? fields "scale" plan.scale float?
    budget := ← field? fields "budget" plan.budget (nat? wordBound) }

/-! ### Doors

What a door holds is told by its mode, so everything in it is read before it is known what it
means. An integer that takes more than 64 but at most 128 bits cannot be kept that long, and
neither can collections that are nested too deeply. -/

/-- Whether a plain scalar can be kept before it is known what it means. -/
def isKeptScalar (s : String) : Bool :=
  match Yaml.Value.meaning s with
  | .wide => false
  | _ => true

mutual

/-- Whether a node of at most so many levels can be kept before it is known what it means. -/
def isKept (levels : Nat) : Node → Bool
  | .scalar plain s => !plain || isKeptScalar s
  | .sequence items => decide (0 < levels) && areKept (levels - 1) items
  | .mapping entries => decide (0 < levels) && areKeptEntries (levels - 1) entries

/-- Whether all items can be kept. -/
def areKept (levels : Nat) : List Node → Bool
  | [] => true
  | item :: items => isKept levels item && areKept levels items

/-- Whether all entries can be kept. -/
def areKeptEntries (levels : Nat) : List (Node × Node) → Bool
  | [] => true
  | (key, value) :: entries =>
    isKept levels key && isKept levels value && areKeptEntries levels entries

end

/-- How many levels a value inside a door may have: a document may have 128, and the door stands
on the third. -/
def levelsInDoor : Nat := 125

/-- What a key of a door names. -/
inductive DoorKey
  | mode
  | limit
  | other
  deriving DecidableEq, Repr

/-- The meaning of a key of a counted door. Fields may also be numbered, the limit being the
first; any other key that is not a text is an error. -/
def doorKey? : Node → Option DoorKey
  | .scalar plain s =>
    match if plain then Yaml.Value.meaning s else .text with
    | .text => some (if s = "mode" then .mode else if s = "limit" then .limit else .other)
    | .natural n => some (if n = 0 then .limit else .other)
    | _ => none
  | _ => none

/-- The limit of a counted door. -/
def limit? (node : Node) : Option Nat :=
  (plain? node).bind fun s =>
    match Yaml.Value.meaning s with
    | .natural n => if n < halfWordBound then some n else none
    | .negative n => if n = 0 then some 0 else none
    | _ => none

/-- The limit of a counted door from the values given for it. -/
def limitOf? : List Node → Option Nat
  | [] => some Door.defaultLimit
  | [node] => limit? node
  | _ => none

/-- A door from its mode, written as a mapping. -/
def doorOfEntries? (entries : List (Node × Node)) : Option Door := do
  let isMode : Node × Node → Bool := fun (key, _) => text? key = some "mode"
  let others := entries.filter fun entry => !isMode entry
  if !areKeptEntries levelsInDoor others then none
  else
    match entries.filter isMode with
    | [(_, mode)] =>
      match ← text? mode with
      | "boundary" => some .boundary
      | "counted" =>
        let keys ← others.mapM fun (key, value) => (doorKey? key).map (·, value)
        let limits := (keys.filter (·.1 == .limit)).map (·.2)
        (limitOf? limits).map .counted
      | _ => none
    | _ => none

/-- A door from a list of its mode and what belongs to it. -/
def doorOfItems? : List Node → Option Door
  | [] => none
  | mode :: others => do
    if !areKept levelsInDoor others then none
    else
      match ← text? mode with
      | "boundary" => if others.isEmpty then some .boundary else none
      | "counted" => (limitOf? others).map .counted
      | _ => none

/-- A door. -/
def door? : Node → Option Door
  | .mapping entries => doorOfEntries? entries
  | .sequence items => doorOfItems? items
  | .scalar .. => none

/-! ### Configurations -/

/-- A queue configuration. -/
def queue? (node : Node) : Option QueueConfig := do
  let fields ← fields? node
  let dflt : QueueConfig := {}
  return {
    partitionBound := ← field? fields "partition-bound" dflt.partitionBound (nat? wordBound)
    groupSize := ← field? fields "group-size" dflt.groupSize (nat? wordBound)
    creditMultiplier := ← field? fields "credit-multiplier" none (optional? (nat? wordBound))
    strategy := ← field? fields "strategy" dflt.strategy (text? · >>= Strategy.ofName?)
    beginName := ← field? fields "begin-name" none (optional? text?)
    schedule := ← field? fields "schedule" none (optional? schedule?)
    window := ← field? fields "window" none (optional? window?)
    door := ← field? fields "door" dflt.door door? }

/-- A role. -/
def role? (node : Node) : Option Role := do
  let fields ← fields? node
  return {
    signalRoot := ← field? fields "signal-root" false bool?
    rootDevice := ← field? fields "root-device" false bool?
    crossSwitch := ← field? fields "cross-pcie-switch" false bool?
    hostReducerRoot := ← field? fields "cpu-reducer-root" false bool? }

/-- A configuration. -/
def config? (node : Node) : Option Config := do
  let fields ← fields? node
  return {
    queue := ← field? fields "queue" {} queue?
    role := ← field? fields "role" {} role? }

end TensorDispatch.Document

namespace TensorDispatch

/-- The configuration that a text describes; a text without a document describes the defaults. -/
def Config.ofText? (s : String) : Option Config := do
  match ← Yaml.Node.ofText? s with
  | none => some {}
  | some node => Document.config? node

end TensorDispatch
