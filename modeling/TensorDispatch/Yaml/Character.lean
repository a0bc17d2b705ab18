/-!
# Characters of a YAML text

Which characters a YAML text may hold, and which of them separate words and lines. A text is
**prepared** for reading by giving all ends of line that stand for a line feed the form of one;
the two Unicode separators keep theirs. A byte order mark at the start of a line is skipped, but
it takes a column like any other character.
-/

namespace TensorDispatch.Yaml

/-- The byte order mark. -/
def byteOrderMark : Char := '\ufeff'

/-- Whether a text may hold the character: every one but control characters and the two
noncharacters at the end of the basic plane. -/
def isAllowed (c : Char) : Bool :=
  c = '\t' || c = '\n' || c = '\r' || c = '\u0085'
    || ('\x20' ≤ c && c ≤ '\x7e')
    || ('\u00a0' ≤ c && c ≤ '\ufffd')
    || 0x10000 ≤ c.toNat

/-- A character that separates words inside a line. -/
def isBlank (c : Char) : Bool := c = ' ' || c = '\t'

/-- A character that ends a line of a prepared text. -/
def isBreak (c : Char) : Bool := c = '\n' || c = '\u2028' || c = '\u2029'

/-- A character that separates words. -/
def isSpace (c : Char) : Bool := isBlank c || isBreak c

/-- Whether a word ends in front of these characters. -/
def endsWord : List Char → Bool
  | [] => true
  | c :: _ => isSpace c

/-- The text with every end of line that stands for a line feed written as one. -/
def unifyBreaks : List Char → List Char
  | [] => []
  | '\r' :: '\n' :: cs => '\n' :: unifyBreaks cs
  | '\r' :: cs => '\n' :: unifyBreaks cs
  | '\u0085' :: cs => '\n' :: unifyBreaks cs
  | c :: cs => c :: unifyBreaks cs

/-- The characters to read, if the text holds none that it may not hold. -/
def prepare? (s : String) : Option (List Char) :=
  if s.toList.all isAllowed then some (unifyBreaks s.toList) else none

/-- Whether a line that starts with these characters is a document mark of three such signs. -/
def isMark (sign : Char) : List Char → Bool
  | a :: b :: c :: cs => a = sign && b = sign && c = sign && endsWord cs
  | _ => false

/-- Whether a line that starts with these characters is a mark between documents. -/
def isDocumentMark (cs : List Char) : Bool := isMark '-' cs || isMark '.' cs

/-- A place in a prepared text. -/
structure Position where
  line : Nat := 0
  /-- The characters of the line in front of it. -/
  column : Nat := 0
  /-- The bytes of the line in front of it. -/
  offset : Nat := 0
  deriving DecidableEq, Repr

namespace Position

/-- The place behind a character. -/
def after (c : Char) (p : Position) : Position :=
  if isBreak c then { line := p.line + 1 }
  else { p with column := p.column + 1, offset := p.offset + c.utf8Size }

/-- The place behind several characters. -/
def afterAll (cs : List Char) (p : Position) : Position := cs.foldl (fun p c => p.after c) p

end Position

/-- What is left to read, and where it starts. -/
structure Cursor where
  rest : List Char
  position : Position := {}
  deriving DecidableEq, Repr

/-- The cursor behind the next `n` characters. -/
def Cursor.skip (n : Nat) (c : Cursor) : Cursor where
  rest := c.rest.drop n
  position := c.position.afterAll (c.rest.take n)

/-- Whether the cursor stands at the start of a line. -/
def Cursor.startsLine (c : Cursor) : Bool := c.position.column = 0

/-- Whether the cursor stands at a mark between documents. -/
def Cursor.isAtMark (c : Cursor) : Bool := c.startsLine && isDocumentMark c.rest

end TensorDispatch.Yaml
