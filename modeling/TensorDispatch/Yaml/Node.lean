import TensorDispatch.Yaml.Token

/-!
# Nodes of a YAML document

A **node** is a scalar, a sequence or a mapping, and a document is one node. Where the grammar
has room for a node and none is written, an empty plain scalar stands.

The functions below follow the grammar, one for each kind of collection. Each takes the tokens
to read and gives back a node with the tokens behind it. All of them are bounded by one fuel: on
the way down at least every third call takes a token, so three times the number of tokens is
enough.
-/

namespace TensorDispatch.Yaml

/-- A piece of a document. -/
inductive Node
  | scalar (plain : Bool) (text : String)
  | sequence (items : List Node)
  | mapping (entries : List (Node × Node))

namespace Node

/-- What stands where nothing is written. -/
def empty : Node := .scalar true ""

/-- Where a node stands. -/
inductive Place
  /-- In a block collection, where another may start only by indentation. -/
  | block
  /-- Under a key of a block mapping, where the entries of a sequence need no indentation. -/
  | underKey
  /-- Inside brackets. -/
  | flow
  deriving DecidableEq, Repr

/-- Whether no node is written in front of these tokens: one of the enders follows at once. -/
def isMissing (enders : List Token) : List Token → Bool
  | [] => false
  | t :: _ => enders.contains t

mutual

/-- The node that starts here. -/
def read : (fuel : Nat) → Place → List Token → Option (Node × List Token)
  | 0, _, _ => none
  | fuel + 1, place, ts =>
    match ts with
    | .scalar plain text :: ts => some (.scalar plain text, ts)
    | .flowSequenceStart :: ts => do
      let (items, ts) ← flowItems fuel true ts
      return (.sequence items, ts)
    | .flowMappingStart :: ts => do
      let (entries, ts) ← flowEntries fuel true ts
      return (.mapping entries, ts)
    | .blockSequenceStart :: ts =>
      if place = .flow then none
      else do
        let (items, ts) ← blockItems fuel ts
        return (.sequence items, ts)
    | .blockMappingStart :: ts =>
      if place = .flow then none
      else do
        let (entries, ts) ← blockEntries fuel ts
        return (.mapping entries, ts)
    | .blockEntry :: _ =>
      if place = .underKey then do
        let (items, ts) ← bareItems fuel ts
        return (.sequence items, ts)
      else none
    | _ => none

/-- The node that starts here, or the empty one if an ender stands here. -/
def readUnless : (fuel : Nat) → Place → (enders : List Token) → List Token →
    Option (Node × List Token)
  | 0, _, _, _ => none
  | fuel + 1, place, enders, ts =>
    if isMissing enders ts then some (empty, ts) else read fuel place ts

/-- The items of a block sequence. -/
def blockItems : (fuel : Nat) → List Token → Option (List Node × List Token)
  | 0, _ => none
  | fuel + 1, ts =>
    match ts with
    | .blockEntry :: ts => do
      let (item, ts) ← readUnless fuel .block [.blockEntry, .blockEnd] ts
      let (items, ts) ← blockItems fuel ts
      return (item :: items, ts)
    | .blockEnd :: ts => some ([], ts)
    | _ => none

/-- The items of a sequence that is not indented under its key. -/
def bareItems : (fuel : Nat) → List Token → Option (List Node × List Token)
  | 0, _ => none
  | fuel + 1, ts =>
    match ts with
    | .blockEntry :: ts => do
      let (item, ts) ← readUnless fuel .block [.blockEntry, .key, .value, .blockEnd] ts
      let (items, ts) ← bareItems fuel ts
      return (item :: items, ts)
    | ts => some ([], ts)

/-- The entries of a block mapping. A colon without a key in front of it is no entry. -/
def blockEntries : (fuel : Nat) → List Token → Option (List (Node × Node) × List Token)
  | 0, _ => none
  | fuel + 1, ts =>
    match ts with
    | .key :: ts => do
      let (key, ts) ← readUnless fuel .underKey [.key, .value, .blockEnd] ts
      let (value, ts) ←
        match ts with
        | .value :: ts => readUnless fuel .underKey [.key, .value, .blockEnd] ts
        | ts => some (empty, ts)
      let (entries, ts) ← blockEntries fuel ts
      return ((key, value) :: entries, ts)
    | .blockEnd :: ts => some ([], ts)
    | _ => none

/-- The items of a sequence in brackets. An item with a key is a mapping of one entry. -/
def flowItems : (fuel : Nat) → (first : Bool) → List Token → Option (List Node × List Token)
  | 0, _, _ => none
  | fuel + 1, first, ts =>
    match ts with
    | .flowSequenceEnd :: ts => some ([], ts)
    | ts => do
      let ts ←
        match first, ts with
        | true, ts => some ts
        | false, .flowEntry :: ts => some ts
        | false, _ => none
      match ts with
      | .flowSequenceEnd :: ts => return ([], ts)
      | .key :: ts =>
        let (entry, ts) ← flowPair fuel ts
        let (items, ts) ← flowItems fuel false ts
        return (.mapping [entry] :: items, ts)
      | ts =>
        let (item, ts) ← read fuel .flow ts
        let (items, ts) ← flowItems fuel false ts
        return (item :: items, ts)

/-- The key and the value of an item in brackets. A key that is left out takes the sign behind
it along. -/
def flowPair : (fuel : Nat) → List Token → Option ((Node × Node) × List Token)
  | 0, _ => none
  | fuel + 1, ts => do
    let (key, ts) ←
      if isMissing [.value, .flowEntry, .flowSequenceEnd] ts then some (empty, ts.tail)
      else read fuel .flow ts
    match ts with
    | .value :: ts =>
      let (value, ts) ← readUnless fuel .flow [.flowEntry, .flowSequenceEnd] ts
      return ((key, value), ts)
    | ts => return ((key, empty), ts)

/-- The entries of a mapping in brackets. A node without a key sign is a key without a
value. -/
def flowEntries : (fuel : Nat) → (first : Bool) → List Token →
    Option (List (Node × Node) × List Token)
  | 0, _, _ => none
  | fuel + 1, first, ts =>
    match ts with
    | .flowMappingEnd :: ts => some ([], ts)
    | ts => do
      let ts ←
        match first, ts with
        | true, ts => some ts
        | false, .flowEntry :: ts => some ts
        | false, _ => none
      match ts with
      | .flowMappingEnd :: ts => return ([], ts)
      | .key :: ts =>
        let (key, ts) ← readUnless fuel .flow [.value, .flowEntry, .flowMappingEnd] ts
        let (value, ts) ←
          match ts with
          | .value :: ts => readUnless fuel .flow [.flowEntry, .flowMappingEnd] ts
          | ts => some (empty, ts)
        let (entries, ts) ← flowEntries fuel false ts
        return ((key, value) :: entries, ts)
      | ts =>
        let (key, ts) ← read fuel .flow ts
        let (entries, ts) ← flowEntries fuel false ts
        return ((key, empty) :: entries, ts)

end

/-- The directives in front of a document, and the tokens behind them. -/
def directives : List Token → List Directive × List Token
  | .directive d :: ts =>
    let (ds, ts) := directives ts
    (d :: ds, ts)
  | ts => ([], ts)

/-- The node of a document and the tokens behind it. A document may start with a mark, and then
it may be empty; behind directives it has to. -/
def document? (ts : List Token) : Option (Node × List Token) :=
  let fuel := 3 * ts.length + 3
  let (ds, ts) := directives ts
  match ts with
  | .documentStart :: ts =>
    if !Directive.areUsable ds then none
    else
      match ts with
      | [] => some (empty, [])
      | _ => readUnless fuel .block [.documentStart, .documentEnd] ts
  | ts => if ds.isEmpty then read fuel .block ts else none

/-- The node of a text that holds at most one document. -/
def ofTokens? (ts : List Token) : Option (Option Node) :=
  if ts.isEmpty then some none
  else do
    let (node, ts) ← document? ts
    if (ts.dropWhile (· == .documentEnd)).isEmpty then some (some node) else none

/-- The document of a text: nothing if the text is malformed or holds several, and no node if
it holds none. -/
def ofText? (s : String) : Option (Option Node) := tokens? s >>= ofTokens?

end Node

end TensorDispatch.Yaml
