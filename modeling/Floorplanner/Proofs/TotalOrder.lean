import Floorplanner.Binary64
import Floorplanner.Proofs.ExactNumber

/-!
The order that numbers are sorted in.

Sorting and the choice of a winner go by `sortsBefore`, which puts all numbers in one order, also
those that do not compare. On binary floating point that is the order of the keys. The other
comparisons leave out what does not compare, and are lawful on the rest.
-/

namespace Floorplanner

namespace Number

/-- Numbers that `sortsBefore` puts in one order, up to ties. -/
class SortsTotally (α : Type) [Number α] : Prop where
  total (a b : α) : sortsBefore a b = true ∨ sortsBefore b a = true
  trans {a b c : α} : sortsBefore a b = true → sortsBefore b c = true → sortsBefore a c = true

theorem SortsTotally.of_key {α κ : Type} [Number α] [LinearOrder κ] (key : α → κ)
    (sorts : ∀ a b : α, sortsBefore a b = true ↔ key a ≤ key b) : SortsTotally α where
  total a b := by
    rw [sorts, sorts]
    exact le_total (key a) (key b)
  trans {a b c} first second := by
    rw [sorts] at first second ⊢
    exact first.trans second

instance {α : Type} [ExactNumber α] : SortsTotally α :=
  .of_key id fun _ _ => decide_eq_true_iff

instance : SortsTotally Float :=
  .of_key Binary64.sortKey fun _ _ => decide_eq_true_iff

/--
The laws of `≤`, which a NaN does not even satisfy with itself: numbers compare if each of them is at
most itself. These are the laws of floating point as much as of an ordered field.
-/
class ComparesLawfully (α : Type) [Number α] : Prop where
  le_trans {a b c : α} : a ≤ b → b ≤ c → a ≤ c
  le_of_lt {a b : α} : a < b → a ≤ b
  not_lt_of_le {a b : α} : a ≤ b → ¬ b < a
  le_of_not_lt {a b : α} : a ≤ a → b ≤ b → ¬ b < a → a ≤ b

instance {α : Type} [ExactNumber α] : ComparesLawfully α where
  le_trans := le_trans
  le_of_lt := le_of_lt
  not_lt_of_le := not_lt_of_ge
  le_of_not_lt _ _ := le_of_not_gt

/--
Numbers of which nothing lies below a NaN, and of which one that compares with itself is given up
for a larger one only, and never for a NaN.
-/
class MaxesLawfully (α : Type) [Number α] : Prop extends ComparesLawfully α where
  zero_le_zero : (0 : α) ≤ 0
  le_self_of_lt {a b : α} : a < b → b ≤ b
  max_eq {a b : α} : a ≤ a → max a b = if a < b then b else a

instance {α : Type} [ExactNumber α] : MaxesLawfully α where
  zero_le_zero := le_rfl
  le_self_of_lt _ := le_rfl
  max_eq _ := max_def_lt _ _

end Number

end Floorplanner
