import Floorplanner.Number

/-!
Sources of random draws.

The search asks for two kinds of draw: a fraction in `[0, 1)` and an index below a bound. A source is
a value; a draw returns what was drawn and the source to go on with. Any source of machine words is a
source of both kinds of draw.
-/

namespace Floorplanner

/-- A source of indices. A bound of zero is never asked for. -/
class IndexSource (σ : Type) where
  index : Nat → σ → Nat × σ
  /-- An index below a small bound, drawn from half as many random bits. -/
  smallIndex : Nat → σ → Nat × σ

class FractionSource (σ : Type) (α : Type) where
  fraction : σ → α × σ

class WordSource (σ : Type) where
  next32 : σ → UInt32 × σ
  next64 : σ → UInt64 × σ

class SeededSource (σ : Type) where
  ofSeed : UInt64 → σ
  seed : σ → UInt64 × σ

namespace WordSource

variable {σ : Type}

/--
How many words an index draw looks at. Each word is taken with probability above one half, so the
limit is not met; at the limit the last word is taken as it is.
-/
def attempts : Nat := 100000

/--
The largest low half of `word * bound` that still leaves every index equally likely: `bound` scaled
up to the top of a word of the given width, less one.
-/
def zone (width bound : Nat) : Nat :=
  (bound <<< (width - 1 - Nat.log2 bound) + (1 <<< width - 1)) % 1 <<< width

/--
Draws an index below `bound` from words of `width` bits. A word is spread over the bound by
multiplication: the high half of the product is the index, and the low half says whether the word
fell into the uneven rest and has to be drawn again.
-/
def spread (width bound : Nat) (draw : σ → Nat × σ) : Nat → σ → Nat × σ
  | 0, source => (((draw source).1 * bound) >>> width, (draw source).2)
  | limit + 1, source =>
      let product := (draw source).1 * bound
      if product % 1 <<< width ≤ zone width bound then
        (product >>> width, (draw source).2)
      else
        spread width bound draw limit (draw source).2

variable [WordSource σ]

def word32 (source : σ) : Nat × σ := ((next32 source).1.toNat, (next32 source).2)

def word64 (source : σ) : Nat × σ := ((next64 source).1.toNat, (next64 source).2)

instance : IndexSource σ where
  index bound := spread 64 bound word64 attempts
  smallIndex bound := spread 32 bound word32 attempts

/-- The top 53 bits of a word, as a multiple of `2 ^ -53`. -/
instance {α : Type} [Number α] : FractionSource σ α where
  fraction source :=
    (Number.ratio ((word64 source).1 >>> 11) (1 <<< 53), (word64 source).2)

end WordSource

end Floorplanner
