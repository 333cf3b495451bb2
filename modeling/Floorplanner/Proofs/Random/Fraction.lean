import Mathlib
import Floorplanner.Random.Source
import Floorplanner.Proofs.ExactNumber

/-! Fractions drawn from words lie between zero and one. -/

namespace Floorplanner

variable {α σ : Type} [ExactNumber α]

class UnitSource (σ α : Type) [ExactNumber α] [FractionSource σ α] : Prop where
  nonneg (source : σ) : 0 ≤ (FractionSource.fraction source : α × σ).1
  lt_one (source : σ) : (FractionSource.fraction source : α × σ).1 < 1

namespace WordSource

variable [WordSource σ]

theorem word64_lt (source : σ) : (word64 source).1 < 2 ^ 64 := (next64 source).1.toNat_lt

/-- The fraction is below one because a word has no more than the 64 bits that it is divided by. -/
instance : UnitSource σ α where
  nonneg source := div_nonneg (Nat.cast_nonneg _) (Nat.cast_nonneg _)
  lt_one source := by
    have bound : (word64 source).1 >>> 11 < 1 <<< 53 := by
      have := word64_lt source
      omega
    change (((word64 source).1 >>> 11 : Nat) : α) / ((1 <<< 53 : Nat) : α) < 1
    rw [div_lt_one (Nat.cast_pos.mpr (by decide))]
    exact_mod_cast bound

end WordSource

end Floorplanner
