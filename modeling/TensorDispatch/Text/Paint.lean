/-!
# Coloured text

Terminal codes around a text: those that select its colour, weight or line before it, and one that
resets the terminal behind it. A text that resets the terminal itself goes on in its tints.
-/

namespace TensorDispatch.Text

/-- A colour, a weight or a line. -/
inductive Tint
  | bold
  | dim
  | underlined
  | green
  | yellow
  | cyan
  deriving DecidableEq, Repr

/-- The number by which a terminal knows a tint. -/
def Tint.code : Tint → Nat
  | bold => 1
  | dim => 2
  | underlined => 4
  | green => 32
  | yellow => 33
  | cyan => 36

/-- The code that selects a tint. -/
def Tint.select (tint : Tint) : String := s!"\x1b[{tint.code}m"

/-- The code that resets the terminal. -/
def reset : String := "\x1b[0m"

/-- The text in some tints, where the terminal shows colours. Behind each reset inside the text
the tints are selected again. -/
def paint (coloured : Bool) (tints : List Tint) (s : String) : String :=
  if coloured && !tints.isEmpty then
    let select := String.join (tints.map Tint.select)
    select ++ (reset ++ select).intercalate (s.splitOn reset) ++ reset
  else s

/-- The text moved to the right end of a column. -/
def padLeft (width : Nat) (s : String) : String :=
  String.ofList (List.replicate (width - s.length) ' ') ++ s

end TensorDispatch.Text
