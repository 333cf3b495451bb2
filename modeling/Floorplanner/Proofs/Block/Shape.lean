import Mathlib
import Floorplanner.Move
import Floorplanner.Proofs.Random.Fraction

/-!
The shapes that a block may have.

A soft block has the sides of a rectangle of its area whose ratio lies in one of its ranges, and the
limits that go with that area. A hard block has one of its sizes. Every change of shape gives a
block another such shape. A wanted width may lie outside all ranges or between two of them, but the
width that the block gets always lies in one.
-/

namespace Floorplanner

variable {α σ : Type} [ExactNumber α]

namespace Interval

def IsOrdered (range : Interval α) : Prop := range.low ≤ range.high

def Covers (range : Interval α) (value : α) : Prop := range.low ≤ value ∧ value ≤ range.high

variable {range : Interval α}

theorem IsOrdered.covers_low (ordered : range.IsOrdered) : range.Covers range.low :=
  ⟨le_refl _, ordered⟩

theorem IsOrdered.covers_high (ordered : range.IsOrdered) : range.Covers range.high :=
  ⟨ordered, le_refl _⟩

theorem IsOrdered.covers_between (ordered : range.IsOrdered) {fraction : α} (nonneg : 0 ≤ fraction)
    (le_one : fraction ≤ 1) : range.Covers (range.low + (range.high - range.low) * fraction) := by
  have length : 0 ≤ range.high - range.low := sub_nonneg.mpr ordered
  have least := mul_nonneg length nonneg
  have most := mul_le_of_le_one_right length le_one
  constructor <;> linarith

end Interval

namespace Block

section Nearest

variable {range first last : Interval α} {neighbour : Option (Interval α)}
  {ranges rest : List (Interval α)} {wanted : α}

theorem nearerEnd_eq_or (value low high : α) :
    nearerEnd value low high = low ∨ nearerEnd value low high = high := by
  rw [nearerEnd]
  split
  · exact .inr rfl
  · exact .inl rfl

theorem covers_widthBelow
    (ordered : ∀ other ∈ neighbour.toList ++ range :: rest, other.IsOrdered)
    (low : range.low ≤ wanted) :
    ∃ other ∈ neighbour.toList ++ range :: rest,
      other.Covers (widthBelow neighbour range wanted) := by
  have member : range ∈ neighbour.toList ++ range :: rest := by simp
  have own := ordered range member
  have clamped : range.Covers (min wanted range.high) := ⟨le_min low own, min_le_right _ _⟩
  cases neighbour with
  | none => exact ⟨range, member, clamped⟩
  | some above =>
      rw [widthBelow]
      split
      · exact ⟨range, member, clamped⟩
      · rcases nearerEnd_eq_or wanted range.high above.low with chosen | chosen
        · rw [chosen]
          exact ⟨range, member, own.covers_high⟩
        · rw [chosen]
          exact ⟨above, List.mem_cons_self, (ordered above List.mem_cons_self).covers_low⟩

theorem covers_widthAmong (neighbour : Option (Interval α))
    (ordered : ∀ other ∈ neighbour.toList ++ ranges, other.IsOrdered) (nonempty : ranges ≠ [])
    (least : (ranges.getLast nonempty).low ≤ wanted) :
    ∃ other ∈ neighbour.toList ++ ranges, other.Covers (widthAmong neighbour wanted ranges) := by
  induction ranges generalizing neighbour with
  | nil => exact absurd rfl nonempty
  | cons range rest induction =>
      cases rest with
      | nil => exact covers_widthBelow ordered least
      | cons next rest =>
          rw [widthAmong]
          split
          next low => exact covers_widthBelow ordered low
          next =>
            have later : (some range).toList ++ next :: rest ⊆
                neighbour.toList ++ range :: next :: rest := by simp
            obtain ⟨other, member, covers⟩ := induction (some range)
              (fun other member => ordered other (later member)) (List.cons_ne_nil _ _) least
            exact ⟨other, later member, covers⟩

theorem covers_nearestWidth (wanted : α) (ordered : ∀ range ∈ ranges, range.IsOrdered)
    (starts : ranges.head? = some first) (ends : ranges.getLast? = some last) :
    ∃ range ∈ ranges, range.Covers (nearestWidth first last ranges wanted) := by
  have firstMember := List.mem_of_head? starts
  have lastMember := List.mem_of_getLast? ends
  rw [nearestWidth]
  split
  · exact ⟨first, firstMember, (ordered first firstMember).covers_high⟩
  · split
    · exact ⟨last, lastMember, (ordered last lastMember).covers_low⟩
    next above =>
      have nonempty := List.ne_nil_of_mem lastMember
      rw [List.getLast?_eq_some_getLast nonempty, Option.some.injEq] at ends
      apply covers_widthAmong none ordered nonempty
      rw [ends]
      exact (not_le.mp above).le

theorem covers_heightAbove
    (ordered : ∀ other ∈ neighbour.toList ++ range :: rest, other.IsOrdered)
    (high : wanted ≤ range.high) :
    ∃ other ∈ neighbour.toList ++ range :: rest,
      other.Covers (heightAbove neighbour range wanted) := by
  have member : range ∈ neighbour.toList ++ range :: rest := by simp
  have own := ordered range member
  have clamped : range.Covers (max wanted range.low) := ⟨le_max_right _ _, max_le high own⟩
  cases neighbour with
  | none => exact ⟨range, member, clamped⟩
  | some below =>
      rw [heightAbove]
      split
      · exact ⟨range, member, clamped⟩
      · rcases nearerEnd_eq_or wanted below.high range.low with chosen | chosen
        · rw [chosen]
          exact ⟨below, List.mem_cons_self, (ordered below List.mem_cons_self).covers_high⟩
        · rw [chosen]
          exact ⟨range, member, own.covers_low⟩

theorem covers_heightAmong (neighbour : Option (Interval α))
    (ordered : ∀ other ∈ neighbour.toList ++ ranges, other.IsOrdered) (nonempty : ranges ≠ [])
    (greatest : wanted ≤ (ranges.getLast nonempty).high) :
    ∃ other ∈ neighbour.toList ++ ranges, other.Covers (heightAmong neighbour wanted ranges) := by
  induction ranges generalizing neighbour with
  | nil => exact absurd rfl nonempty
  | cons range rest induction =>
      cases rest with
      | nil => exact covers_heightAbove ordered greatest
      | cons next rest =>
          rw [heightAmong]
          split
          next high => exact covers_heightAbove ordered high
          next =>
            have later : (some range).toList ++ next :: rest ⊆
                neighbour.toList ++ range :: next :: rest := by simp
            obtain ⟨other, member, covers⟩ := induction (some range)
              (fun other member => ordered other (later member)) (List.cons_ne_nil _ _) greatest
            exact ⟨other, later member, covers⟩

theorem covers_nearestHeight (wanted : α) (ordered : ∀ range ∈ ranges, range.IsOrdered)
    (starts : ranges.head? = some first) (ends : ranges.getLast? = some last) :
    ∃ range ∈ ranges, range.Covers (nearestHeight first last ranges wanted) := by
  have firstMember := List.mem_of_head? starts
  have lastMember := List.mem_of_getLast? ends
  rw [nearestHeight]
  split
  · exact ⟨first, firstMember, (ordered first firstMember).covers_low⟩
  · split
    · exact ⟨last, lastMember, (ordered last lastMember).covers_high⟩
    next below =>
      have nonempty := List.ne_nil_of_mem lastMember
      rw [List.getLast?_eq_some_getLast nonempty, Option.some.injEq] at ends
      apply covers_heightAmong none ordered nonempty
      rw [ends]
      exact (not_le.mp below).le

end Nearest

section Sides

variable [ExactNumber.HasRoots α] {a b area ratio height width : α} {range : Interval α}

structure IsRatioRange (range : Interval α) : Prop where
  positive : 0 < range.low
  ordered : range.IsOrdered

theorem sqrt_le_sqrt (nonneg : 0 ≤ a) (le : a ≤ b) : Number.sqrt a ≤ Number.sqrt b := by
  apply nonneg_le_nonneg_of_sq_le_sq (ExactNumber.HasRoots.sqrt_nonneg b (nonneg.trans le))
  rwa [ExactNumber.HasRoots.sqrt_mul_self a nonneg,
    ExactNumber.HasRoots.sqrt_mul_self b (nonneg.trans le)]

theorem sqrt_pos (positive : 0 < a) : 0 < Number.sqrt a := by
  apply (ExactNumber.HasRoots.sqrt_nonneg a positive.le).lt_of_ne
  intro zero
  have square := ExactNumber.HasRoots.sqrt_mul_self a positive.le
  rw [← zero, mul_zero] at square
  exact positive.ne square

variable (positive : 0 < area) (isRange : IsRatioRange range)

include positive isRange

theorem low_heightRange_pos : 0 < (heightRange area range).low :=
  sqrt_pos (mul_pos positive isRange.positive)

theorem isOrdered_heightRange : (heightRange area range).IsOrdered := by
  apply sqrt_le_sqrt (mul_pos positive isRange.positive).le
  exact mul_le_mul_of_nonneg_left isRange.ordered positive.le

theorem isOrdered_widthRange : (widthRange area range).IsOrdered := by
  apply div_le_div_of_nonneg_left positive.le (low_heightRange_pos positive isRange)
  exact isOrdered_heightRange positive isRange

theorem covers_heightRange_sqrt (covers : range.Covers ratio) :
    (heightRange area range).Covers (Number.sqrt (area * ratio)) := by
  constructor
  · apply sqrt_le_sqrt (mul_pos positive isRange.positive).le
    exact mul_le_mul_of_nonneg_left covers.1 positive.le
  · apply sqrt_le_sqrt (mul_pos positive (isRange.positive.trans_le covers.1)).le
    exact mul_le_mul_of_nonneg_left covers.2 positive.le

/-- The height that goes with a width of a range lies in the range as well. -/
theorem covers_heightRange_div (covers : (widthRange area range).Covers width) :
    (heightRange area range).Covers (area / width) ∧ width = area / (area / width) := by
  have lowPositive := low_heightRange_pos positive isRange
  have highPositive := lowPositive.trans_le (isOrdered_heightRange positive isRange)
  have widthPositive : 0 < width := (div_pos positive highPositive).trans_le covers.1
  refine ⟨⟨?_, ?_⟩, ?_⟩
  · rw [le_div_comm₀ lowPositive widthPositive]
    exact covers.2
  · rw [div_le_comm₀ widthPositive highPositive]
    exact covers.1
  · rw [div_div_cancel₀ positive.ne']

theorem sides_of_covers (covers : (heightRange area range).Covers height) :
    area / height * height = area ∧ range.Covers (height / (area / height)) := by
  have lowPositive := low_heightRange_pos positive isRange
  have heightPositive : 0 < height := lowPositive.trans_le covers.1
  have highNonneg : 0 ≤ area * range.high :=
    mul_nonneg positive.le (isRange.positive.le.trans isRange.ordered)
  refine ⟨div_mul_cancel₀ area heightPositive.ne', ?_, ?_⟩
  · rw [div_div_eq_mul_div, le_div_iff₀ positive, mul_comm range.low]
    calc
      area * range.low = (heightRange area range).low * (heightRange area range).low :=
        (ExactNumber.HasRoots.sqrt_mul_self _ (mul_pos positive isRange.positive).le).symm
      _ ≤ height * height := mul_self_le_mul_self lowPositive.le covers.1
  · rw [div_div_eq_mul_div, div_le_iff₀ positive, mul_comm range.high]
    calc
      height * height ≤ (heightRange area range).high * (heightRange area range).high :=
        mul_self_le_mul_self heightPositive.le covers.2
      _ = area * range.high := ExactNumber.HasRoots.sqrt_mul_self _ highNonneg

end Sides

/-- The blocks that a form may become: the same form, in one of the shapes that it has to offer. -/
inductive Form.Allows : Form α → Block α → Prop
  | soft {ratios widths heights : List (Interval α)} {block : Block α}
      (ranges : ∀ range ∈ ratios, IsRatioRange range)
      (limits : block.form = .ofRatios block.area ratios)
      (positive : 0 < block.area)
      (sides : block.width * block.height = block.area)
      (ratio : ∃ range ∈ ratios, range.Covers (block.height / block.width)) :
      Allows (.soft ratios widths heights) block
  | hard {macros chosen current : Nat} {options : List (Size α)} {block : Block α}
      (form : block.form = .hard macros options current)
      (size : options[current]? = some ⟨block.width, block.height⟩) :
      Allows (.hard macros options chosen) block

namespace Form.Allows

variable {form : Form α} {block : Block α}

theorem moveTo (allows : form.Allows block) (x y : α) : form.Allows (block.moveTo x y) := by
  cases allows with
  | soft ranges limits positive sides ratio => exact .soft ranges limits positive sides ratio
  | hard form size => exact .hard form size

theorem chooseOption (allows : form.Allows block) (index : Nat) :
    form.Allows (block.chooseOption index) := by
  cases allows with
  | soft ranges limits positive sides ratio =>
      rw [Block.chooseOption, limits, Form.ofRatios]
      exact .soft ranges limits positive sides ratio
  | hard form size =>
      rw [Block.chooseOption, form]
      dsimp only
      split
      · exact .hard form size
      next found => exact .hard rfl found

theorem switchOption [IndexSource σ] (allows : form.Allows block) (source : σ) :
    form.Allows (block.switchOption source).1 := by
  rw [Block.switchOption]
  split
  · exact allows
  · split
    · exact allows
    · exact allows.chooseOption _

theorem shrink (allows : form.Allows block) {factor : α} (positiveFactor : 0 < factor) :
    form.Allows (block.shrink factor) := by
  cases allows with
  | hard form size =>
      rw [Block.shrink, form]
      exact .hard form size
  | @soft ratios _ _ _ ranges limits positive sides ratio =>
      have area : block.width * factor * (block.height * factor) =
          block.area * (factor * factor) := by
        rw [mul_mul_mul_comm, sides]
      rw [Block.shrink, limits, Form.ofRatios]
      refine .soft ranges rfl ?_ rfl ?_
      · change 0 < block.width * factor * (block.height * factor)
        rw [area]
        exact mul_pos positive (mul_pos positiveFactor positiveFactor)
      · rwa [mul_div_mul_right _ _ positiveFactor.ne']

variable [ExactNumber.HasRoots α] {ratios widths heights : List (Interval α)}

/-- A soft block whose height lies in a range, and whose width goes with it, is as it should be. -/
theorem ofHeight (ranges : ∀ range ∈ ratios, IsRatioRange range)
    (limits : block.form = .ofRatios block.area ratios) (positive : 0 < block.area)
    {range : Interval α} (member : range ∈ ratios)
    (covers : (heightRange block.area range).Covers block.height)
    (width : block.width = block.area / block.height) :
    (Form.soft ratios widths heights).Allows block := by
  obtain ⟨sides, ratio⟩ := sides_of_covers positive (ranges range member) covers
  rw [← width] at sides ratio
  exact .soft ranges limits positive sides ⟨range, member, ratio⟩

theorem withRatio (ranges : ∀ range ∈ ratios, IsRatioRange range)
    (limits : block.form = .ofRatios block.area ratios) (positive : 0 < block.area)
    {range : Interval α} (member : range ∈ ratios) {ratio : α} (covers : range.Covers ratio) :
    (Form.soft ratios widths heights).Allows (block.withRatio ratio) := by
  have limits : (block.withRatio ratio).form = .ofRatios (block.withRatio ratio).area ratios :=
    limits
  have height := covers_heightRange_sqrt positive (ranges range member) covers
  exact ofHeight ranges limits positive member height rfl

theorem changeWidth (allows : form.Allows block) (wanted : α) :
    form.Allows (block.changeWidth wanted) := by
  cases allows with
  | hard form size =>
      rw [Block.changeWidth, form]
      exact .hard form size
  | @soft ratios _ _ _ ranges limits positive sides ratio =>
      rw [Block.changeWidth, limits, Form.ofRatios]
      dsimp only
      split
      next first last starts ends =>
        have ordered : ∀ range ∈ ratios.map (widthRange block.area), range.IsOrdered := by
          simp only [List.forall_mem_map]
          exact fun range member => isOrdered_widthRange positive (ranges range member)
        obtain ⟨_, image, covers⟩ := covers_nearestWidth wanted ordered starts ends
        obtain ⟨range, member, rfl⟩ := List.mem_map.mp image
        obtain ⟨height, width⟩ := covers_heightRange_div positive (ranges range member) covers
        exact ofHeight ranges rfl positive member height width
      next => exact .soft ranges limits positive sides ratio

theorem changeHeight (allows : form.Allows block) (wanted : α) :
    form.Allows (block.changeHeight wanted) := by
  cases allows with
  | hard form size =>
      rw [Block.changeHeight, form]
      exact .hard form size
  | @soft ratios _ _ _ ranges limits positive sides ratio =>
      rw [Block.changeHeight, limits, Form.ofRatios]
      dsimp only
      split
      next first last starts ends =>
        have ordered : ∀ range ∈ ratios.map (heightRange block.area), range.IsOrdered := by
          simp only [List.forall_mem_map]
          exact fun range member => isOrdered_heightRange positive (ranges range member)
        obtain ⟨_, image, covers⟩ := covers_nearestHeight wanted ordered starts ends
        obtain ⟨range, member, rfl⟩ := List.mem_map.mp image
        exact ofHeight ranges rfl positive member covers rfl
      next => exact .soft ranges limits positive sides ratio

section Random

variable [IndexSource σ] [FractionSource σ α] [UnitSource σ α]

theorem randomRatio (allows : form.Allows block) (source : σ) :
    form.Allows (block.randomRatio source).1 := by
  cases allows with
  | hard form size =>
      rw [Block.randomRatio, form]
      exact .hard form size
  | @soft ratios widths heights _ ranges limits positive sides ratio =>
      have unchanged : (Form.soft ratios widths heights).Allows block :=
        .soft ranges limits positive sides ratio
      rw [Block.randomRatio, limits, Form.ofRatios]
      dsimp only
      split
      · exact unchanged
      · split
        · exact unchanged
        next range found =>
          have member := List.mem_of_getElem? found
          have ordered := (ranges range member).ordered
          split
          · exact withRatio ranges limits positive member ordered.covers_low
          · apply withRatio ranges limits positive member
            exact ordered.covers_between (UnitSource.nonneg _) (UnitSource.lt_one _).le

theorem randomize (allows : form.Allows block) (source : σ) :
    form.Allows (block.randomize source).1 := by
  rw [Block.randomize]
  split
  · exact allows.randomRatio source
  · split
    · exact allows
    · exact allows.chooseOption _

end Random

end Form.Allows

end Block

end Floorplanner
