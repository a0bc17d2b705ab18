import TensorDispatch.Number.Width

/-!
# A keyed stream of words

The **keystream** of a 256-bit key is the sequence of 32-bit words that the ChaCha block function
with twelve rounds produces for the block numbers 0, 1, 2, …. The sixteen words of a block state
are held as four **rows**; a round mixes the rows lane by lane, first as they stand, so that the
lanes are the columns of the state, and then rotated against each other, so that the lanes are
its diagonals.
-/

namespace TensorDispatch.Random

/-- Four 32-bit words that are worked on lane by lane. -/
structure Row where
  w0 : UInt32
  w1 : UInt32
  w2 : UInt32
  w3 : UInt32
  deriving DecidableEq, Repr

namespace Row

/-- Combines two rows lane by lane. -/
def zipWith (f : UInt32 → UInt32 → UInt32) (a b : Row) : Row :=
  ⟨f a.w0 b.w0, f a.w1 b.w1, f a.w2 b.w2, f a.w3 b.w3⟩

/-- Changes each lane. -/
def map (f : UInt32 → UInt32) (a : Row) : Row := ⟨f a.w0, f a.w1, f a.w2, f a.w3⟩

/-- The row with its words moved one lane down. -/
def rotate (a : Row) : Row := ⟨a.w1, a.w2, a.w3, a.w0⟩

/-- The words of a row in order. -/
def toList (a : Row) : List UInt32 := [a.w0, a.w1, a.w2, a.w3]

end Row

/-- The word with its bits moved up by `n` places, the upper ones coming in below. -/
def rotateLeft (n : UInt32) (x : UInt32) : UInt32 := (x <<< n) ||| (x >>> (32 - n))

/-- The sixteen words of a block. -/
structure Block where
  a : Row
  b : Row
  c : Row
  d : Row
  deriving DecidableEq, Repr

namespace Block

/-- Half a mixing step: `a` absorbs `b`, `d` takes it up and is rotated by `n` bits. -/
def absorb (n : UInt32) (a b d : Row) : Row × Row :=
  let a := a.zipWith (· + ·) b
  (a, (d.zipWith (· ^^^ ·) a).map (rotateLeft n))

/-- The mixing step on all four lanes at once. -/
def mix (s : Block) : Block :=
  let (a, d) := absorb 16 s.a s.b s.d
  let (c, b) := absorb 12 s.c d s.b
  let (a, d) := absorb 8 a b d
  let (c, b) := absorb 7 c d b
  ⟨a, b, c, d⟩

/-- Turns the diagonals of the block into lanes. -/
def diagonalize (s : Block) : Block :=
  ⟨s.a, s.b.rotate, s.c.rotate.rotate, s.d.rotate.rotate.rotate⟩

/-- Turns lanes back into diagonals. -/
def undiagonalize (s : Block) : Block :=
  ⟨s.a, s.b.rotate.rotate.rotate, s.c.rotate.rotate, s.d.rotate⟩

/-- Two rounds: one on the columns and one on the diagonals. -/
def doubleRound (s : Block) : Block := s.mix.diagonalize.mix.undiagonalize

/-- Adds two blocks word by word. -/
def add (s t : Block) : Block :=
  ⟨s.a.zipWith (· + ·) t.a, s.b.zipWith (· + ·) t.b, s.c.zipWith (· + ·) t.c,
    s.d.zipWith (· + ·) t.d⟩

/-- The words of a block in order. -/
def toList (s : Block) : List UInt32 :=
  s.a.toList ++ s.b.toList ++ s.c.toList ++ s.d.toList

theorem undiagonalize_diagonalize (s : Block) : s.diagonalize.undiagonalize = s := rfl

theorem length_toList (s : Block) : s.toList.length = 16 := rfl

end Block

/-- The eight words of a key. -/
structure Key where
  low : Row
  high : Row
  deriving DecidableEq, Repr

namespace Key

/-- The state from which the block of the given number is computed. -/
def initial (key : Key) (number : Nat) : Block where
  a := ⟨0x61707865, 0x3320646e, 0x79622d32, 0x6b206574⟩
  b := key.low
  c := key.high
  d := ⟨UInt32.ofNat number, UInt32.ofNat (number / halfWordBound), 0, 0⟩

/-- The block of the given number. -/
def block (key : Key) (number : Nat) : Block :=
  let s := key.initial number
  (Nat.repeat Block.doubleRound 6 s).add s

/-- The `n`-th word of the keystream. -/
def word (key : Key) (n : Nat) : UInt32 := (key.block (n / 16)).toList.getD (n % 16) 0

end Key

/-! ### Keys from seeds -/

/-- One step of the generator that spreads a seed over a key. -/
def stretch (s : UInt64) : UInt64 := s * 6364136223846793005 + 11634580027462260723

/-- The key word of a spread seed: its upper bits folded, and rotated by the topmost ones. -/
def keyWord (s : UInt64) : UInt32 :=
  let x := (((s >>> 18) ^^^ s) >>> 27).toUInt32
  let r := (s >>> 59).toUInt32
  (x >>> r) ||| (x <<< ((32 - r) % 32))

/-- The key of a seed. -/
def Key.ofSeed (seed : UInt64) : Key :=
  let s0 := stretch seed
  let s1 := stretch s0
  let s2 := stretch s1
  let s3 := stretch s2
  let s4 := stretch s3
  let s5 := stretch s4
  let s6 := stretch s5
  let s7 := stretch s6
  ⟨⟨keyWord s0, keyWord s1, keyWord s2, keyWord s3⟩,
    ⟨keyWord s4, keyWord s5, keyWord s6, keyWord s7⟩⟩

end TensorDispatch.Random
