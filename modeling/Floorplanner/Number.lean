/-!
The numbers that geometry, cost and annealing are computed with.

Every numeric definition of the library is stated over `Number`, so that the same text runs on binary
floating point and is reasoned about over an exact ordered field. The class names the operations that
are used and nothing else; it asks for no laws.
-/

namespace Floorplanner

class Number (α : Type) extends
    Zero α, One α, NatCast α, Add α, Sub α, Mul α, Div α, Neg α,
    BEq α, LE α, LT α, Min α, Max α where
  decLe : DecidableLE α
  decLt : DecidableLT α
  abs : α → α
  sqrt : α → α
  exp : α → α
  log : α → α
  isFinite : α → Bool
  /-- Total order used for sorting; it agrees with `≤` on comparable numbers. -/
  sortsBefore : α → α → Bool
  /-- Whole part of a number, no lower than zero and no higher than the largest 64-bit count. -/
  wholePart : α → Nat

namespace Number

variable {α : Type} [Number α]

instance : DecidableLE α := decLe

instance : DecidableLT α := decLt

def ratio (num den : Nat) : α := (num : α) / (den : α)

/--
Sum from left to right. The empty sum is the negated zero, so on numbers with a signed zero the sum
of no terms is the negative one, and adding it changes no term.
-/
def sum (terms : List α) : α := terms.foldl (· + ·) (-0)

end Number

end Floorplanner
