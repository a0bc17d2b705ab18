import TensorDispatch.Yaml.Character

/-!
# Gaps between the words of a scalar

A scalar may be spread over several lines. The **gap** between two of its words is the space
that was passed on the way from one to the other, and it is **folded**: a gap inside a line
stays as it is, a single line end becomes a space, and of several line ends the first is left
out. Space around line ends does not count.
-/

namespace TensorDispatch.Yaml

/-- The space passed since the last word. -/
structure Gap where
  /-- Blanks, the latest first, as long as no line has ended. -/
  blanks : List Char := []
  /-- Whether a line has ended. -/
  broken : Bool := false
  /-- The first line end, unless it was escaped. -/
  first : Option Char := none
  /-- The further line ends, the latest first. -/
  further : List Char := []
  deriving DecidableEq, Repr

namespace Gap

/-- A blank is passed. -/
def addBlank (c : Char) (g : Gap) : Gap :=
  if g.broken then g else { g with blanks := c :: g.blanks }

/-- A line end is passed. -/
def addBreak (c : Char) (g : Gap) : Gap :=
  if g.broken then { g with further := c :: g.further }
  else { broken := true, first := some c }

/-- An escaped line end is passed. -/
def escapedBreak : Gap := { broken := true }

/-- The characters that stand for the gap, the latest first. -/
def fold (g : Gap) : List Char :=
  if g.broken then
    if g.first = some '\n' then if g.further.isEmpty then [' '] else g.further
    else g.further ++ g.first.toList
  else g.blanks

end Gap

end TensorDispatch.Yaml
