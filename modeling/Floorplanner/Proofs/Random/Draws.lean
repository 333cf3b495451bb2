import Mathlib
import Floorplanner.Random.Source

/-!
Draws that keep to their bounds.

No index lies below a bound of zero, so a range that is drawn from must not be empty. Two sources are
related if draws lead from one to the other without an empty range on the way; on a source that
records the bounds it is asked for, that says that none of them is zero.
-/

namespace Floorplanner

variable {σ : Type}

class BoundedSource (σ : Type) [IndexSource σ] : Prop where
  index_lt {bound : Nat} (source : σ) : 0 < bound → (IndexSource.index bound source).1 < bound
  smallIndex_lt {bound : Nat} (source : σ) :
    0 < bound → (IndexSource.smallIndex bound source).1 < bound

namespace WordSource

variable {width bound : Nat} {draw : σ → Nat × σ}

theorem shiftRight_mul_lt {word : Nat} (small : word < 2 ^ width) (positive : 0 < bound) :
    (word * bound) >>> width < bound := by
  rw [Nat.shiftRight_eq_div_pow, Nat.div_lt_iff_lt_mul (Nat.two_pow_pos width), Nat.mul_comm]
  exact Nat.mul_lt_mul_of_pos_left small positive

theorem spread_lt (small : ∀ source, (draw source).1 < 2 ^ width) (positive : 0 < bound)
    (limit : Nat) (source : σ) : (spread width bound draw limit source).1 < bound := by
  induction limit generalizing source with
  | zero => exact shiftRight_mul_lt (small source) positive
  | succ limit induction =>
      rw [spread]
      split
      · exact shiftRight_mul_lt (small source) positive
      · exact induction _

instance [WordSource σ] : BoundedSource σ where
  index_lt source positive :=
    spread_lt (fun source => (next64 source).1.toNat_lt) positive attempts source
  smallIndex_lt source positive :=
    spread_lt (fun source => (next32 source).1.toNat_lt) positive attempts source

end WordSource

/-- Some draws lead from one source to the other, and none is from an empty range. -/
inductive Draws (α : Type) [IndexSource σ] [FractionSource σ α] : σ → σ → Prop where
  | refl (source : σ) : Draws α source source
  | fraction {source last : σ} (later : Draws α (FractionSource.fraction source : α × σ).2 last) :
      Draws α source last
  | index {bound : Nat} {source last : σ} (nonempty : 0 < bound)
      (later : Draws α (IndexSource.index bound source).2 last) : Draws α source last
  | smallIndex {bound : Nat} {source last : σ} (nonempty : 0 < bound)
      (later : Draws α (IndexSource.smallIndex bound source).2 last) : Draws α source last

theorem Draws.trans {α : Type} [IndexSource σ] [FractionSource σ α] {source middle last : σ}
    (first : Draws α source middle) (second : Draws α middle last) : Draws α source last := by
  induction first with
  | refl => exact second
  | fraction _ induction => exact .fraction (induction second)
  | index nonempty _ induction => exact .index nonempty (induction second)
  | smallIndex nonempty _ induction => exact .smallIndex nonempty (induction second)

end Floorplanner
