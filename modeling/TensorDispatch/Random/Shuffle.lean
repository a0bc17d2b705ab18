import TensorDispatch.Random.Keystream

/-!
# Seeded shuffles

A **generator** is a key and the number of words drawn from its keystream. A shuffle walks over
a list and swaps each entry with an earlier one or itself. The places to swap with are drawn in
**chunks**: one draw below a product of consecutive bounds is taken apart, by remainders, into
one place for each bound of the product.

The main statement is `shuffle_perm`: a shuffle only rearranges.
-/

namespace TensorDispatch.Random

/-- A position in the keystream of a key. -/
structure Generator where
  key : Key
  drawn : Nat := 0
  deriving DecidableEq, Repr

namespace Generator

/-- The generator of a seed. -/
def ofSeed (seed : Nat) : Generator := { key := .ofSeed (UInt64.ofNat seed) }

/-- The next word, and the generator behind it. -/
def draw (g : Generator) : Nat × Generator :=
  ((g.key.word g.drawn).toNat, { g with drawn := g.drawn + 1 })

/-- A number below the bound: the upper half of a word times the bound. Where the lower half
leaves it open whether a finer draw would carry into the upper one, a second word decides. -/
def below (bound : Nat) (g : Generator) : Nat × Generator :=
  let (word, g) := g.draw
  let product := word * bound
  let upper := product / halfWordBound
  let lower := product % halfWordBound
  if (halfWordBound - bound) % halfWordBound < lower then
    let (word, g) := g.draw
    let carry := (lower + word * bound / halfWordBound) / halfWordBound
    (upper + carry, g)
  else (upper, g)

end Generator

/-- The longest product `bound * next * (next + 1) * …` below `halfWordBound`, and the first factor
that is left out. -/
def growChunk (bound next : Nat) : Nat × Nat :=
  if h : 0 < bound ∧ 1 < next ∧ bound * next < halfWordBound then
    growChunk (bound * next) (next + 1)
  else (bound, next)
termination_by halfWordBound - bound
decreasing_by
  have : bound * 2 ≤ bound * next := Nat.mul_le_mul_left bound h.2.1
  omega

/-- Draws the places to swap with: the one at index `n` is at most `n`. -/
structure Chooser where
  generator : Generator
  /-- How many places have been chosen. -/
  chosen : Nat := 0
  /-- What is left of the current draw. -/
  chunk : Nat := 0
  /-- How many places the current draw still holds. -/
  held : Nat := 1

namespace Chooser

/-- Takes a new draw if the current one holds no more places. -/
def refill (c : Chooser) : Chooser :=
  if c.held = 0 then
    let first := c.chosen + 1
    let (bound, next) := growChunk first (first + 1)
    let (chunk, generator) := c.generator.below bound
    { c with generator, chunk, held := next - first }
  else c

/-- The next place. The last place of a draw is all that is left of it. -/
def next (c : Chooser) : Nat × Chooser :=
  let c := c.refill
  let count := c.chosen + 1
  if c.held = 1 then (c.chunk, { c with chosen := count, held := 0 })
  else
    (c.chunk % count,
      { c with chosen := count, chunk := c.chunk / count, held := c.held - 1 })

end Chooser

/-- Swaps each of `remaining` entries from the index `i` on with a chosen place. -/
def shuffleFrom {α : Type} : (remaining i : Nat) → Array α → Chooser → Array α × Chooser
  | 0, _, xs, c => (xs, c)
  | remaining + 1, i, xs, c =>
    let (place, c) := c.next
    shuffleFrom remaining (i + 1) (xs.swapIfInBounds i place) c

/-- Rearranges a list. A list of at most one entry draws nothing. -/
def shuffle {α : Type} (xs : List α) (g : Generator) : List α × Generator :=
  if xs.length ≤ 1 then (xs, g)
  else
    let (ys, c) := shuffleFrom xs.length 0 xs.toArray { generator := g }
    (ys.toList, c.generator)

/-! ### A shuffle only rearranges -/

theorem swapIfInBounds_perm {α : Type} (xs : Array α) (i j : Nat) :
    (xs.swapIfInBounds i j).Perm xs := by
  unfold Array.swapIfInBounds
  split
  · split
    · exact Array.swap_perm ..
    · exact .refl _
  · exact .refl _

theorem shuffleFrom_perm {α : Type} (remaining i : Nat) (xs : Array α) (c : Chooser) :
    (shuffleFrom remaining i xs c).1.Perm xs := by
  induction remaining generalizing i xs c with
  | zero => exact .refl _
  | succ n ih => exact (ih ..).trans (swapIfInBounds_perm ..)

theorem shuffle_perm {α : Type} (xs : List α) (g : Generator) : (shuffle xs g).1.Perm xs := by
  unfold shuffle
  split
  · exact .refl _
  · have h := shuffleFrom_perm xs.length 0 xs.toArray { generator := g }
    exact Array.perm_iff_toList_perm.mp h

end TensorDispatch.Random
