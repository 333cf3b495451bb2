import Mathlib
import Floorplanner.Number

/-!
Numbers without rounding.

Geometry is reasoned about over a linearly ordered field. The functions that a field does not come
with are left open: what a statement needs of them, it asks for.
-/

namespace Floorplanner

/-- A linearly ordered field with the functions that floorplans are computed with. -/
class ExactNumber (α : Type) extends Field α, LinearOrder α, IsStrictOrderedRing α where
  sqrt : α → α
  exp : α → α
  log : α → α
  wholePart : α → Nat

namespace ExactNumber

variable {α : Type} [ExactNumber α]

instance number : Number α where
  decLe := inferInstance
  decLt := inferInstance
  abs a := |a|
  sqrt := sqrt
  exp := exp
  log := log
  isFinite _ := true
  sortsBefore a b := decide (a ≤ b)
  wholePart := wholePart

noncomputable instance : ExactNumber ℝ where
  sqrt := Real.sqrt
  exp := Real.exp
  log := Real.log
  wholePart a := min ⌊a⌋₊ (2 ^ 64 - 1)

/-- Numbers of which those that are not negative have exact square roots. -/
class HasRoots (α : Type) [ExactNumber α] : Prop where
  sqrt_nonneg (a : α) : 0 ≤ a → 0 ≤ Number.sqrt a
  sqrt_mul_self (a : α) : 0 ≤ a → Number.sqrt a * Number.sqrt a = a

instance : HasRoots ℝ where
  sqrt_nonneg a _ := Real.sqrt_nonneg a
  sqrt_mul_self _ nonneg := Real.mul_self_sqrt nonneg

/-- Numbers with a logarithm that is negative below one. -/
class HasLogs (α : Type) [ExactNumber α] : Prop where
  log_neg (a : α) : 0 < a → a < 1 → Number.log a < 0

instance : HasLogs ℝ where
  log_neg _ := Real.log_neg

/-- Numbers that are rounded down to counts, as far as these go. -/
class HasWholeParts (α : Type) [ExactNumber α] [FloorSemiring α] : Prop where
  wholePart_eq (a : α) : Number.wholePart a = min ⌊a⌋₊ (2 ^ 64 - 1)

noncomputable instance : HasWholeParts ℝ where
  wholePart_eq _ := rfl

end ExactNumber

end Floorplanner
