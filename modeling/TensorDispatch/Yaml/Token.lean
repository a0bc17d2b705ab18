import TensorDispatch.Yaml.Directive
import TensorDispatch.Yaml.Plain
import TensorDispatch.Yaml.Quoted

/-!
# Tokens of a YAML text

A text is cut into **tokens**: scalars, the signs between them, and the starts and ends of
block collections, which indentation tells. A key needs no sign of its own. Where one might
stand, its place is noted, and a colon that follows on the same line makes it one by setting a
key token in front of it. Texts with anchors, aliases, tags or block scalars are outside this
reader, which refuses them like malformed ones.
-/

namespace TensorDispatch.Yaml

/-- A piece of a YAML text. -/
inductive Token
  | directive (d : Directive)
  | documentStart
  | documentEnd
  | blockSequenceStart
  | blockMappingStart
  | blockEnd
  | flowSequenceStart
  | flowSequenceEnd
  | flowMappingStart
  | flowMappingEnd
  | blockEntry
  | flowEntry
  | key
  | value
  | scalar (plain : Bool) (text : String)
  deriving DecidableEq, Repr

/-- A place at which a key may start. -/
structure KeyPlace where
  /-- The number of tokens in front of it. -/
  token : Nat
  position : Position
  /-- Whether nothing but a key may stand there. -/
  required : Bool
  deriving DecidableEq, Repr

/-- The furthest a colon may be from the start of its key, in bytes. -/
def keySpan : Nat := 1024

/-- The reading of a text into tokens. -/
structure Lexer where
  cursor : Cursor
  /-- The tokens so far, the latest first. -/
  tokens : List Token := []
  /-- The number of tokens so far. -/
  count : Nat := 0
  /-- The column of the innermost block collection, or `-1` outside all of them. -/
  indent : Int := -1
  /-- The columns of the collections around it, the innermost first. -/
  outerIndents : List Int := []
  /-- Whether a key may start here. -/
  keyAllowed : Bool := true
  /-- Where the current key may have started. -/
  keyPlace : Option KeyPlace := none
  /-- The same for the levels around the innermost brackets, the innermost first. -/
  outerKeyPlaces : List (Option KeyPlace) := []

namespace Lexer

/-- Whether the reading is inside brackets. -/
def inFlow (l : Lexer) : Bool := !l.outerKeyPlaces.isEmpty

/-- Adds a token. -/
def emit (t : Token) (l : Lexer) : Lexer :=
  { l with tokens := t :: l.tokens, count := l.count + 1 }

/-- Sets a token in front of all but the first `n`. -/
def emitAt (n : Nat) (t : Token) (l : Lexer) : Lexer :=
  let later := l.count - n
  { l with tokens := l.tokens.take later ++ t :: l.tokens.drop later, count := l.count + 1 }

/-! ### Between tokens -/

/-- The cursor at the next token, and whether a key may start there: the end of a line outside
brackets allows one. A tab is skipped only where it cannot be taken for indentation. -/
def skipSpace (inFlow : Bool) (keyAllowed comment : Bool) (p : Position) :
    List Char → Cursor × Bool
  | [] => (⟨[], p⟩, keyAllowed)
  | c :: cs =>
    if isBreak c then skipSpace inFlow (keyAllowed || !inFlow) false (p.after c) cs
    else if comment || c = ' ' || (c = '\t' && (inFlow || !keyAllowed))
        || (c = byteOrderMark && p.column = 0) then
      skipSpace inFlow keyAllowed comment (p.after c) cs
    else if c = '#' then skipSpace inFlow keyAllowed true (p.after c) cs
    else (⟨c :: cs, p⟩, keyAllowed)

/-- Whether a colon at this position could still belong to a key at this place. -/
def isWithinReach (p : Position) (k : KeyPlace) : Bool :=
  k.position.line = p.line && p.offset ≤ k.position.offset + keySpan

/-- Forgets a key place that is out of reach; a required one has missed its colon. -/
def refresh? (p : Position) : Option KeyPlace → Option (Option KeyPlace)
  | none => some none
  | some k =>
    if isWithinReach p k then some (some k) else if k.required then none else some none

/-- Ends the block collections that are indented further than a column. -/
def unwind (column : Int) (l : Lexer) : Lexer :=
  if l.inFlow then l
  else
    let ended := (l.indent :: l.outerIndents).takeWhile (column < ·)
    let l := ended.foldl (fun l _ => l.emit .blockEnd) l
    match (l.indent :: l.outerIndents).drop ended.length with
    | [] => l
    | indent :: outerIndents => { l with indent, outerIndents }

/-- Goes to the next token. The key places around brackets are looked at again when the brackets
close. -/
def approach? (l : Lexer) : Option Lexer := do
  let (cursor, keyAllowed) :=
    skipSpace l.inFlow l.keyAllowed false l.cursor.position l.cursor.rest
  let keyPlace ← refresh? cursor.position l.keyPlace
  return unwind cursor.position.column { l with cursor, keyAllowed, keyPlace }

/-! ### Keys and block collections -/

/-- Gives up the current key place; a required one has missed its colon. -/
def dropKey? (l : Lexer) : Option Lexer :=
  if l.keyPlace.any (·.required) then none else some { l with keyPlace := none }

/-- Notes that a key may start at the cursor. -/
def noteKey? (l : Lexer) : Option Lexer :=
  if l.keyAllowed then do
    let l ← l.dropKey?
    return { l with keyPlace := some {
      token := l.count
      position := l.cursor.position
      required := !l.inFlow && l.indent = l.cursor.position.column } }
  else some l

/-- Starts a block collection at a column, unless one stands there already. -/
def startBlock (column : Nat) (place : Nat) (t : Token) (l : Lexer) : Lexer :=
  if !l.inFlow && l.indent < column then
    { l with indent := column, outerIndents := l.indent :: l.outerIndents }.emitAt place t
  else l

/-- Starts a block collection where a key or an entry may start, and fails elsewhere; inside
brackets there is none to start. -/
def startBlockHere? (t : Token) (l : Lexer) : Option Lexer :=
  if l.inFlow then some l
  else if l.keyAllowed then some (l.startBlock l.cursor.position.column l.count t)
  else none

/-! ### Single tokens -/

/-- Adds a token of `n` characters and goes behind it. -/
def take (n : Nat) (t : Token) (l : Lexer) : Lexer :=
  { l.emit t with cursor := l.cursor.skip n }

/-- A directive ends all block collections. It takes its whole line, and a key may not start at
once behind it. -/
def directive? (l : Lexer) : Option Lexer := do
  let l ← (l.unwind (-1)).dropKey?
  let (d, rest) ← Directive.read? l.cursor.rest.tail
  let taken := l.cursor.rest.length - rest.length
  return { l.take taken (.directive d) with keyAllowed := false }

/-- A mark between documents ends all block collections. -/
def documentMark? (t : Token) (l : Lexer) : Option Lexer := do
  let l ← (l.unwind (-1)).dropKey?
  return { l.take 3 t with keyAllowed := false }

/-- An opening bracket may start a key, and a key may stand behind it. -/
def openFlow? (t : Token) (l : Lexer) : Option Lexer := do
  let l ← l.noteKey?
  return { l.take 1 t with
    keyPlace := none
    outerKeyPlaces := l.keyPlace :: l.outerKeyPlaces
    keyAllowed := true }

/-- A closing bracket leads back to the level around it. -/
def closeFlow? (t : Token) (l : Lexer) : Option Lexer := do
  let l ← l.dropKey?
  let l := { l.take 1 t with keyAllowed := false }
  match l.outerKeyPlaces with
  | [] => return l
  | keyPlace :: outerKeyPlaces => return { l with keyPlace, outerKeyPlaces }

/-- A comma. -/
def flowEntry? (l : Lexer) : Option Lexer := do
  let l ← l.dropKey?
  return { l.take 1 .flowEntry with keyAllowed := true }

/-- A dash in front of an entry of a block sequence. -/
def blockEntry? (l : Lexer) : Option Lexer := do
  let l ← (← l.startBlockHere? .blockSequenceStart).dropKey?
  return { l.take 1 .blockEntry with keyAllowed := true }

/-- A question mark in front of a key. -/
def explicitKey? (l : Lexer) : Option Lexer := do
  let l ← (← l.startBlockHere? .blockMappingStart).dropKey?
  return { l.take 1 .key with keyAllowed := !l.inFlow }

/-- A colon: what stands at the noted place becomes a key, or else the key was explicit or is
missing. -/
def value? (l : Lexer) : Option Lexer := do
  match l.keyPlace with
  | some k =>
    let l := (l.emitAt k.token .key).startBlock k.position.column k.token
      .blockMappingStart
    return { l.take 1 .value with keyPlace := none, keyAllowed := false }
  | none =>
    let l ← l.startBlockHere? .blockMappingStart
    return { l.take 1 .value with keyAllowed := !l.inFlow }

/-- A scalar between quotes. -/
def quoted? (double : Bool) (l : Lexer) : Option Lexer := do
  let l ← l.noteKey?
  let (text, cursor) ← Quoted.read? double l.cursor
  return { l.emit (.scalar false text) with cursor, keyAllowed := false }

/-- A scalar without quotes. A key may follow if a line ended behind it. -/
def plain? (l : Lexer) : Option Lexer := do
  let l ← l.noteKey?
  let (text, broken, cursor) ← Plain.read? l.inFlow (l.indent + 1) l.cursor
  return { l.emit (.scalar true text) with cursor, keyAllowed := broken }

/-- A sign that no plain scalar starts with. -/
def isIndicator (c : Char) : Bool :=
  c ∈ ['-', '?', ':', ',', '[', ']', '{', '}', '#', '&', '*', '!', '|', '>', '\'', '"', '%', '@',
    '\x60']

/-- Whether a plain scalar starts with these characters. A dash or, outside brackets, a
question mark or a colon starts one when a word goes on behind it. -/
def startsPlain (inFlow : Bool) : List Char → Bool
  | [] => false
  | c :: cs =>
    !(isSpace c || isIndicator c)
      || (c = '-' && !(cs.head?.any isBlank))
      || (!inFlow && (c = '?' || c = ':') && !endsWord cs)

/-- The next token, from a cursor that stands at it. -/
def next? (l : Lexer) : Option Lexer :=
  let inFlow := l.inFlow
  match l.cursor.rest with
  | [] => none
  | c :: cs =>
    if l.cursor.startsLine && c = '%' then l.directive?
    else if l.cursor.startsLine && isMark '-' (c :: cs) then l.documentMark? .documentStart
    else if l.cursor.startsLine && isMark '.' (c :: cs) then l.documentMark? .documentEnd
    else if c = '[' then l.openFlow? .flowSequenceStart
    else if c = '{' then l.openFlow? .flowMappingStart
    else if c = ']' then l.closeFlow? .flowSequenceEnd
    else if c = '}' then l.closeFlow? .flowMappingEnd
    else if c = ',' then l.flowEntry?
    else if c = '-' && endsWord cs then l.blockEntry?
    else if c = '?' && (inFlow || endsWord cs) then l.explicitKey?
    else if c = ':' && (inFlow || endsWord cs) then l.value?
    else if c = '\'' then l.quoted? false
    else if c = '"' then l.quoted? true
    else if startsPlain inFlow (c :: cs) then l.plain?
    else none

/-- Reads tokens to the end of the text; each takes at least one character, so their number is
bounded by the length of the text. -/
def run? : (fuel : Nat) → Lexer → Option (List Token)
  | 0, _ => none
  | fuel + 1, l => do
    let l ← l.approach?
    if l.cursor.rest.isEmpty then
      let l ← (l.unwind (-1)).dropKey?
      return l.tokens.reverse
    else run? fuel (← l.next?)

end Lexer

/-- The tokens of a text. -/
def tokens? (s : String) : Option (List Token) := do
  let rest ← prepare? s
  Lexer.run? (rest.length + 1) { cursor := { rest := rest } }

end TensorDispatch.Yaml
