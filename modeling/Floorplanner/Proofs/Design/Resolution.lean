import Mathlib
import Floorplanner.Proofs.Block.Shape
import Floorplanner.Proofs.Design.Consistency

/-! The blocks of a problem that comes from a design have shapes that they may have. -/

namespace Floorplanner

variable {α : Type} [ExactNumber α]

namespace Design

namespace BlockDescription

variable {description : BlockDescription α} {block : Block α} {name : String} {area : α}
  {ratios : List (Interval α)}

theorem allows_soft [ExactNumber.HasRoots α] (positive : 0 < area) (nonempty : ratios ≠ [])
    (ranges : ∀ range ∈ ratios, Block.IsRatioRange range) :
    (Block.soft name area ratios).form.Allows (Block.soft name area ratios) := by
  have members : ∀ range, range ∈ ratios.mergeSort Block.rangeSortsBefore ↔ range ∈ ratios :=
    fun range => List.mem_mergeSort
  have ranges : ∀ range ∈ ratios.mergeSort Block.rangeSortsBefore, Block.IsRatioRange range :=
    fun range member => ranges range ((members range).mp member)
  rw [Block.soft]
  generalize ratios.mergeSort Block.rangeSortsBefore = sorted at members ranges
  cases sorted with
  | nil =>
      obtain ⟨range, member⟩ := List.exists_mem_of_ne_nil ratios nonempty
      nomatch (members range).mpr member
  | cons first rest =>
      apply Block.Form.Allows.withRatio ranges rfl positive List.mem_cons_self
      exact (ranges first List.mem_cons_self).ordered.covers_low

theorem allows_resolve [ExactNumber.HasRoots α] (resolved : description.resolve = .ok block) :
    block.form.Allows block := by
  rcases resolve_cases resolved with ⟨_, _, first, member, rfl⟩ | ⟨_, describes, area, member, rfl⟩
  · obtain ⟨rest, shapes⟩ := List.head?_eq_some_iff.mp member
    rw [shapes]
    exact .hard rfl rfl
  · obtain ⟨_, same, positive, _⟩ := describes.area
    cases Option.mem_unique same member
    apply allows_soft positive describes.nonempty
    intro range member
    obtain ⟨positive, ordered, _⟩ := describes.ranges range member
    exact ⟨positive, ordered⟩

end BlockDescription

theorem allows_of_mem_resolve [ExactNumber.HasRoots α] {design : Design α} {problem : Problem α}
    (resolved : design.resolve = .ok problem) :
    ∀ block ∈ problem.blocks, block.form.Allows block := by
  obtain ⟨_, _, _, _, blocks, _, _, made, _, _, rfl⟩ := resolve_eq_ok_iff.mp resolved
  exact forall_mem_of_mapM (fun _ _ => BlockDescription.allows_resolve) (mapM_eq_ok_iff.mpr made)

end Design

end Floorplanner
