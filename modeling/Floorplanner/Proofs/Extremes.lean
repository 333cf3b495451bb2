import Mathlib

/-!
The least and the greatest of some values.

A fold by `min` or `max` over a list comes to the least or the greatest of its values and the one that
it starts from.
-/

namespace Floorplanner

variable {β : Type} [LinearOrder β]

theorem isLeast_foldl_min (start : β) (values : List β) :
    IsLeast {value | value ∈ start :: values} (values.foldl min start) := by
  induction values using List.reverseRecOn with
  | nil => simp
  | append_singleton values value induction =>
      have members : {other | other ∈ start :: (values ++ [value])} =
          insert value {other | other ∈ start :: values} := by
        ext other
        simp [or_comm, or_left_comm]
      rw [List.foldl_concat, members, min_comm]
      exact induction.insert value

theorem isGreatest_foldl_max (start : β) (values : List β) :
    IsGreatest {value | value ∈ start :: values} (values.foldl max start) :=
  isLeast_foldl_min (β := βᵒᵈ) start values

end Floorplanner
