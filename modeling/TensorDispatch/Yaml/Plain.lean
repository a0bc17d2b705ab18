import TensorDispatch.Yaml.Gap

/-!
# Plain scalars

A scalar without quotes is a row of words. A word ends at a space, at a colon that ends a word
itself, and inside brackets also at a comma or a bracket. The scalar goes on over space and line
ends to the next word, as long as that word is indented enough and does not start a comment.
-/

namespace TensorDispatch.Yaml.Plain

/-- A sign that ends a word inside brackets. -/
def isFlowSign (c : Char) : Bool := c = ',' || c = '[' || c = ']' || c = '{' || c = '}'

/-- Whether a colon in front of these characters may not stand in a scalar inside brackets. -/
def isStrayColon : List Char → Bool
  | [] => false
  | c :: _ => isFlowSign c || c = '?'

/-- Whether a word ends in front of this character, which is no space, with `cs` behind it. -/
def endsAt (inFlow : Bool) (c : Char) (cs : List Char) : Bool :=
  (c = ':' && endsWord cs) || (inFlow && isFlowSign c)

/-- Whether the scalar does not go on with a new word at this cursor: the word is not indented
enough, or starts a comment, or is a mark between documents. -/
def endsBefore (inFlow : Bool) (indent : Int) (c : Cursor) : Bool :=
  (!inFlow && c.position.column < indent) || c.isAtMark || c.rest.head? = some '#'

/-- Reads on as long as the scalar does, `read` holding the characters so far, the latest first,
and `gap` the space passed since. Behind the end of a line, a tab may not stand in the place of
indentation. Inside brackets, a colon in front of a sign of the brackets is an error. The flag of
the answer tells whether a line ended behind the last word. -/
def scan (inFlow : Bool) (indent : Int) (read : List Char) (gap : Gap) (inWord : Bool)
    (p : Position) : List Char → Option (List Char × Bool × Cursor)
  | [] => some (read.reverse, gap.broken, ⟨[], p⟩)
  | c :: cs =>
    if isBlank c then
      if gap.broken && c = '\t' && p.column < indent then none
      else scan inFlow indent read (gap.addBlank c) false (p.after c) cs
    else if isBreak c then scan inFlow indent read (gap.addBreak c) false (p.after c) cs
    else if !inWord && endsBefore inFlow indent ⟨c :: cs, p⟩ then
      some (read.reverse, gap.broken, ⟨c :: cs, p⟩)
    else if inFlow && c = ':' && isStrayColon cs then none
    else if endsAt inFlow c cs then some (read.reverse, gap.broken, ⟨c :: cs, p⟩)
    else scan inFlow indent (c :: (gap.fold ++ read)) {} true (p.after c) cs

/-- The plain scalar at a cursor, whether a line ended behind it, and the cursor at what
follows. -/
def read? (inFlow : Bool) (indent : Int) (c : Cursor) : Option (String × Bool × Cursor) :=
  (scan inFlow indent [] {} true c.position c.rest).map fun (cs, broken, next) =>
    (String.ofList cs, broken, next)

end TensorDispatch.Yaml.Plain
