import Floorplanner.Random.Source

/-!
The seeded generator: the ChaCha stream cipher with twelve rounds, read as a stream of 32-bit words.

The sixteen words of the cipher's state are four rows. A round works on the four columns at once; a
double round does so again on the diagonals, which are columns once the rows are rotated.
-/

namespace Floorplanner

namespace ChaCha

structure Row where
  a : UInt32
  b : UInt32
  c : UInt32
  d : UInt32

namespace Row

@[inline] def map₂ (f : UInt32 → UInt32 → UInt32) (x y : Row) : Row :=
  ⟨f x.a y.a, f x.b y.b, f x.c y.c, f x.d y.d⟩

@[inline] def map (f : UInt32 → UInt32) (x : Row) : Row := ⟨f x.a, f x.b, f x.c, f x.d⟩

def rotate (x : Row) : Row := ⟨x.b, x.c, x.d, x.a⟩

def toList (x : Row) : List UInt32 := [x.a, x.b, x.c, x.d]

end Row

structure Matrix where
  first : Row
  second : Row
  third : Row
  fourth : Row

@[inline] def rotateLeft (count word : UInt32) : UInt32 := word <<< count ||| word >>> (32 - count)

def mix (count : UInt32) (target addend mixed : Row) : Row × Row :=
  let sum := target.map₂ (· + ·) addend
  (sum, (mixed.map₂ (· ^^^ ·) sum).map (rotateLeft count))

def Matrix.columns (m : Matrix) : Matrix :=
  let (a, d) := mix 16 m.first m.second m.fourth
  let (c, b) := mix 12 m.third d m.second
  let (a, d) := mix 8 a b d
  let (c, b) := mix 7 c d b
  ⟨a, b, c, d⟩

def Matrix.skew (m : Matrix) : Matrix :=
  ⟨m.first, m.second.rotate, m.third.rotate.rotate, m.fourth.rotate.rotate.rotate⟩

def Matrix.unskew (m : Matrix) : Matrix :=
  ⟨m.first, m.second.rotate.rotate.rotate, m.third.rotate.rotate, m.fourth.rotate⟩

def Matrix.doubleRound (m : Matrix) : Matrix := m.columns.skew.columns.unskew

def Matrix.doubleRounds : Nat → Matrix → Matrix
  | 0, m => m
  | n + 1, m => doubleRounds n m.doubleRound

def Matrix.add (m n : Matrix) : Matrix :=
  ⟨m.first.map₂ (· + ·) n.first, m.second.map₂ (· + ·) n.second,
    m.third.map₂ (· + ·) n.third, m.fourth.map₂ (· + ·) n.fourth⟩

def Matrix.toList (m : Matrix) : List UInt32 :=
  m.first.toList ++ m.second.toList ++ m.third.toList ++ m.fourth.toList

/-- The words of one block: twelve rounds, added to the block's start. -/
def block (low high : Row) (counter : UInt64) : List UInt32 :=
  let start : Matrix :=
    ⟨⟨0x61707865, 0x3320646e, 0x79622d32, 0x6b206574⟩, low, high,
      ⟨counter.toUInt32, (counter >>> 32).toUInt32, 0, 0⟩⟩
  ((start.doubleRounds 6).add start).toList

end ChaCha

structure Generator where
  low : ChaCha.Row
  high : ChaCha.Row
  counter : UInt64
  pending : List UInt32

namespace Generator

/-- One step of the congruential sequence that stretches a seed into a key. -/
def stretch (state : UInt64) : UInt32 × UInt64 :=
  let next := state * 6364136223846793005 + 11634580027462260723
  let folded := (((next >>> 18) ^^^ next) >>> 27).toUInt32
  let count := (next >>> 59).toUInt32
  (folded >>> count ||| folded <<< ((32 - count) % 32), next)

def keyRow (state : UInt64) : ChaCha.Row × UInt64 :=
  let (a, s₁) := stretch state
  let (b, s₂) := stretch s₁
  let (c, s₃) := stretch s₂
  let (d, s₄) := stretch s₃
  (⟨a, b, c, d⟩, s₄)

def ofSeed (seed : UInt64) : Generator :=
  let (low, state) := keyRow seed
  let (high, _) := keyRow state
  { low, high, counter := 0, pending := [] }

def next32 (generator : Generator) : UInt32 × Generator :=
  match generator.pending with
  | word :: rest => (word, { generator with pending := rest })
  | [] =>
      let words := ChaCha.block generator.low generator.high generator.counter
      (words.headD 0,
        { generator with counter := generator.counter + 1, pending := words.tail })

/-- Two words of the stream, the first of them the low half. -/
def next64 (generator : Generator) : UInt64 × Generator :=
  let (low, g₁) := generator.next32
  let (high, g₂) := g₁.next32
  (high.toUInt64 <<< 32 ||| low.toUInt64, g₂)

instance : WordSource Generator where
  next32 := next32
  next64 := next64

instance : SeededSource Generator where
  ofSeed := ofSeed
  seed := next64

end Generator

end Floorplanner
