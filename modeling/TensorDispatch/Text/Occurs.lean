/-!
# Occurrence of a text in another

`Text.occurs w s` holds when `w` can be read somewhere in `s` without a gap; the empty text
occurs everywhere. The main statement, `Text.occursIn_iff`, says this of lists of characters.
-/

namespace TensorDispatch.Text

/-- Whether the characters `w` stand one after the other somewhere in a list. -/
def occursIn (w : List Char) : List Char → Bool
  | [] => w.isEmpty
  | c :: cs => w.isPrefixOf (c :: cs) || occursIn w cs

/-- Whether `w` is a part of `s`. -/
def occurs (w s : String) : Bool :=
  occursIn w.toList s.toList

theorem occursIn_iff {w s : List Char} : occursIn w s = true ↔ w <:+: s := by
  induction s with
  | nil => simp [occursIn]
  | cons c cs ih => simp [occursIn, ih, List.infix_cons_iff]

end TensorDispatch.Text
