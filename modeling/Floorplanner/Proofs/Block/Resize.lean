import Mathlib
import Floorplanner.Proofs.Design.WellFormed
import Floorplanner.Proofs.Interval.Nearest

/-!
How near a resize comes to the wanted size.

A resize looks for the wanted width or height among the limits of a soft block. The limits follow
the ranges of the aspect ratio in their order, the widths from wide to narrow, so whether every
resize ends on the nearest allowed size is a matter of the ranges alone. Its result is an allowed
size in any case.
-/

namespace Floorplanner

variable {α : Type} [ExactNumber α]

namespace Block

open Floorplanner.Interval (CoveredBy Lands ReachGaps AreSorted mirrored)

section Scans

variable {range first last : Interval α} {passed ranges rest : List (Interval α)} {wanted : α}

theorem isNearer_nearerEnd {low high : α} (lowLe : low ≤ wanted) (leHigh : wanted ≤ high) :
    IsNearer low high wanted (nearerEnd wanted low high) := by
  have below : |wanted - low| = wanted - low := abs_of_nonneg (sub_nonneg.mpr lowLe)
  have above : |wanted - high| = high - wanted := by
    rw [abs_sub_comm, abs_of_nonneg (sub_nonneg.mpr leHigh)]
  rw [nearerEnd]
  split
  next nearer => exact ⟨.inr rfl, by rw [below, above]; exact nearer.le, le_refl _⟩
  next further => exact ⟨.inl rfl, le_refl _, by rw [below, above]; exact not_lt.mp further⟩

theorem lands_heightAbove (starts : (passed ++ range :: rest).head? = some first)
    (ends : (passed ++ range :: rest).getLast? = some last) (low : first.low < wanted)
    (high : wanted < last.high) (below : ∀ other ∈ passed, other.high < wanted)
    (reaches : wanted ≤ range.high) :
    Lands (passed ++ range :: rest) wanted (heightAbove passed.getLast? range wanted) := by
  apply Lands.of_reaches starts ends low high below reaches
  · intro least
    cases passed.getLast? with
    | none => exact max_eq_left least
    | some previous => rw [heightAbove, if_pos least, max_eq_left least]
  · intro previous isLast gap
    have previousHigh := below previous (List.mem_of_mem_getLast? isLast)
    rw [isLast, heightAbove, if_neg gap.not_ge]
    exact isNearer_nearerEnd previousHigh.le gap.le

theorem lands_heightAmong (passed : List (Interval α))
    (starts : (passed ++ ranges).head? = some first) (ends : ranges.getLast? = some last)
    (low : first.low < wanted) (high : wanted < last.high)
    (below : ∀ other ∈ passed, other.high < wanted) :
    Lands (passed ++ ranges) wanted (heightAmong passed.getLast? wanted ranges) := by
  induction ranges generalizing passed with
  | nil => cases ends
  | cons range rest induction =>
      have ending : (passed ++ range :: rest).getLast? = some last := by
        rw [List.getLast?_append, ends, Option.some_or]
      cases rest with
      | nil =>
          cases ends
          exact lands_heightAbove starts ending low high below high.le
      | cons next rest =>
          rw [heightAmong]
          split
          next reaches => exact lands_heightAbove starts ending low high below reaches
          next beyond =>
            have passes : ∀ other ∈ passed ++ [range], other.high < wanted := by
              intro other member
              rcases List.mem_append.mp member with earlier | isRange
              · exact below other earlier
              · rw [List.mem_singleton.mp isRange]
                exact not_le.mp beyond
            have later := induction (passed ++ [range]) (by simpa using starts) ends passes
            simpa using later

theorem lands_nearestHeight (starts : ranges.head? = some first)
    (ends : ranges.getLast? = some last) (wanted : α) :
    Lands ranges wanted (nearestHeight first last ranges wanted) := by
  rw [nearestHeight]
  split
  next low => exact .below starts low
  next low =>
    split
    next high => exact .above ends high
    next high =>
      have passes : ∀ other ∈ ([] : List (Interval α)), other.high < wanted := by simp
      exact lands_heightAmong [] starts ends (not_le.mp low) (not_le.mp high) passes

/-! Widths are looked for from the upper end, which is the lower one of the mirrored ranges. -/

theorem lands_widthBelow (starts : (passed ++ range :: rest).head? = some first)
    (ends : (passed ++ range :: rest).getLast? = some last) (high : wanted < first.high)
    (low : last.low < wanted) (above : ∀ other ∈ passed, wanted < other.low)
    (reaches : range.low ≤ wanted) :
    Lands ((passed ++ range :: rest).map mirrored) (-wanted)
      (-widthBelow passed.getLast? range wanted) := by
  have starting := congrArg (Option.map mirrored) starts
  have ending := congrArg (Option.map mirrored) ends
  rw [← List.head?_map] at starting
  rw [← List.getLast?_map] at ending
  rw [List.map_append, List.map_cons] at starting ending ⊢
  refine .of_reaches starting ending (neg_lt_neg high) (neg_lt_neg low) ?_ (neg_le_neg reaches)
    ?_ ?_
  · rw [List.forall_mem_map]
    exact fun other isPassed => neg_lt_neg (above other isPassed)
  · intro most
    have most : wanted ≤ range.high := neg_le_neg_iff.mp most
    cases passed.getLast? with
    | none => rw [widthBelow, min_eq_left most]
    | some previous => rw [widthBelow, if_pos most, min_eq_left most]
  · rw [List.getLast?_map]
    intro image isImage gap
    obtain ⟨previous, isLast, rfl⟩ := Option.map_eq_some_iff.mp isImage
    have gap : range.high < wanted := neg_lt_neg_iff.mp gap
    have previousLow := above previous (List.mem_of_getLast? isLast)
    rw [isLast, widthBelow, if_neg gap.not_ge]
    exact (isNearer_nearerEnd gap.le previousLow.le).neg

theorem lands_widthAmong (passed : List (Interval α))
    (starts : (passed ++ ranges).head? = some first) (ends : ranges.getLast? = some last)
    (high : wanted < first.high) (low : last.low < wanted)
    (above : ∀ other ∈ passed, wanted < other.low) :
    Lands ((passed ++ ranges).map mirrored) (-wanted)
      (-widthAmong passed.getLast? wanted ranges) := by
  induction ranges generalizing passed with
  | nil => cases ends
  | cons range rest induction =>
      have ending : (passed ++ range :: rest).getLast? = some last := by
        rw [List.getLast?_append, ends, Option.some_or]
      cases rest with
      | nil =>
          cases ends
          exact lands_widthBelow starts ending high low above low.le
      | cons next rest =>
          rw [widthAmong]
          split
          next reaches => exact lands_widthBelow starts ending high low above reaches
          next beyond =>
            have passes : ∀ other ∈ passed ++ [range], wanted < other.low := by
              intro other member
              rcases List.mem_append.mp member with earlier | isRange
              · exact above other earlier
              · rw [List.mem_singleton.mp isRange]
                exact not_le.mp beyond
            have later := induction (passed ++ [range]) (by simpa using starts) ends passes
            simpa using later

theorem lands_nearestWidth (starts : ranges.head? = some first)
    (ends : ranges.getLast? = some last) (wanted : α) :
    Lands (ranges.map mirrored) (-wanted) (-nearestWidth first last ranges wanted) := by
  rw [nearestWidth]
  split
  next high =>
    refine .below (?_ : _ = some first.mirrored) (neg_le_neg high)
    rw [List.head?_map, starts, Option.map_some]
  next high =>
    split
    next low =>
      refine .above (?_ : _ = some last.mirrored) (neg_le_neg low)
      rw [List.getLast?_map, ends, Option.map_some]
    next low =>
      have passes : ∀ other ∈ ([] : List (Interval α)), wanted < other.low := by simp
      exact lands_widthAmong [] starts ends (not_le.mp high) (not_le.mp low) passes

end Scans

/-- A width at which a block of the area has its ratio in one of the ranges. -/
def AllowsWidth (area : α) (ratios : List (Interval α)) (width : α) : Prop :=
  0 < width ∧ CoveredBy ratios (area / (width * width))

def AllowsHeight (area : α) (ratios : List (Interval α)) (height : α) : Prop :=
  0 < height ∧ CoveredBy ratios (height * height / area)

section Limits

variable [ExactNumber.HasRoots α] {area width height : α} {ratios : List (Interval α)}

theorem sqrt_mul_self_eq (nonneg : 0 ≤ height) : Number.sqrt (height * height) = height := by
  have square := mul_self_nonneg height
  exact (mul_self_inj (ExactNumber.HasRoots.sqrt_nonneg _ square) nonneg).mp
    (ExactNumber.HasRoots.sqrt_mul_self _ square)

variable (positive : 0 < area)

include positive

theorem covers_heightRange_iff {range : Interval α} (isRange : IsRatioRange range) :
    (heightRange area range).Covers height ↔
      0 < height ∧ range.Covers (height * height / area) := by
  constructor
  · intro covers
    have ratio := (sides_of_covers positive isRange covers).2
    rw [div_div_eq_mul_div] at ratio
    exact ⟨(low_heightRange_pos positive isRange).trans_le covers.1, ratio⟩
  · rintro ⟨heightPositive, covers⟩
    have limits := covers_heightRange_sqrt positive isRange covers
    rwa [mul_div_cancel₀ _ positive.ne', sqrt_mul_self_eq heightPositive.le] at limits

theorem covers_widthRange_iff {range : Interval α} (isRange : IsRatioRange range) :
    (widthRange area range).Covers width ↔ 0 < width ∧ range.Covers (area / (width * width)) := by
  have lowPositive := low_heightRange_pos positive isRange
  have highPositive := lowPositive.trans_le (isOrdered_heightRange positive isRange)
  have square (widthPositive : 0 < width) :
      area / width * (area / width) / area = area / (width * width) := by
    field_simp
  constructor
  · intro covers
    have widthPositive : 0 < width := (div_pos positive highPositive).trans_le covers.1
    have limits := (covers_heightRange_div positive isRange covers).1
    rw [covers_heightRange_iff positive isRange, square widthPositive] at limits
    exact ⟨widthPositive, limits.2⟩
  · rintro ⟨widthPositive, covers⟩
    rw [← square widthPositive] at covers
    obtain ⟨low, high⟩ := (covers_heightRange_iff positive isRange).mpr
      ⟨div_pos positive widthPositive, covers⟩
    exact ⟨(div_le_comm₀ widthPositive highPositive).mp high,
      (le_div_comm₀ lowPositive widthPositive).mp low⟩

variable (ranges : ∀ range ∈ ratios, IsRatioRange range)

include ranges

theorem coveredBy_heightRanges_iff :
    CoveredBy (ratios.map (heightRange area)) height ↔ AllowsHeight area ratios height := by
  simp only [CoveredBy, AllowsHeight, List.mem_map, exists_exists_and_eq_and, and_left_comm,
    ← exists_and_left]
  refine exists_congr fun range => and_congr_right fun member => ?_
  exact covers_heightRange_iff positive (ranges range member)

theorem coveredBy_widthRanges_iff :
    CoveredBy (ratios.map (widthRange area)) width ↔ AllowsWidth area ratios width := by
  simp only [CoveredBy, AllowsWidth, List.mem_map, exists_exists_and_eq_and, and_left_comm,
    ← exists_and_left]
  refine exists_congr fun range => and_congr_right fun member => ?_
  exact covers_widthRange_iff positive (ranges range member)

end Limits

section Orders

variable [ExactNumber.HasRoots α] {area : α} (positive : 0 < area)

include positive

theorem strictMonoOn_height :
    StrictMonoOn (fun ratio => Number.sqrt (area * ratio)) (Set.Ioi 0) := by
  intro first firstPositive second _ less
  refine lt_of_le_of_ne (sqrt_le_sqrt (mul_pos positive firstPositive).le
    (mul_le_mul_of_nonneg_left less.le positive.le)) fun same => ?_
  have squares := congrArg (fun root => root * root) same
  dsimp only at squares
  rw [ExactNumber.HasRoots.sqrt_mul_self _ (mul_pos positive firstPositive).le,
    ExactNumber.HasRoots.sqrt_mul_self _ (mul_pos positive (firstPositive.trans less)).le] at squares
  exact less.ne (mul_left_cancel₀ positive.ne' squares)

theorem strictMonoOn_neg_width :
    StrictMonoOn (fun ratio => -(area / Number.sqrt (area * ratio))) (Set.Ioi 0) := by
  intro first firstPositive second secondPositive less
  apply neg_lt_neg
  exact div_lt_div_of_pos_left positive (sqrt_pos (mul_pos positive firstPositive))
    (strictMonoOn_height positive firstPositive secondPositive less)

end Orders

theorem areSorted_mergeSort {ratios : List (Interval α)}
    (ranges : ∀ range ∈ ratios, IsRatioRange range) :
    AreSorted (ratios.mergeSort rangeSortsBefore) where
  ordered := fun range member => (ranges range (List.mem_mergeSort.mp member)).ordered
  lows := by
    have sorted : (ratios.mergeSort rangeSortsBefore).Pairwise
        fun first second => rangeSortsBefore first second = true := by
      apply List.pairwise_mergeSort
      · exact fun _ _ _ => rangeSortsBefore_trans
      · exact rangeSortsBefore_total
    exact sorted.imp fun sorts => of_decide_eq_true (sortsBefore_low_of_rangeSortsBefore sorts)

theorem map_mirrored_widthRange (area : α) (ratios : List (Interval α)) :
    (ratios.map (widthRange area)).map mirrored =
      ratios.map (Interval.image fun ratio => -(area / Number.sqrt (area * ratio))) :=
  List.map_map

theorem isRatioRange_mergeSort {ratios : List (Interval α)}
    (ranges : ∀ range ∈ ratios, IsRatioRange range) :
    ∀ range ∈ ratios.mergeSort rangeSortsBefore, IsRatioRange range :=
  fun range member => ranges range (List.mem_mergeSort.mp member)

theorem ends_pos {ratios : List (Interval α)} (ranges : ∀ range ∈ ratios, IsRatioRange range) :
    ∀ range ∈ ratios, range.low ∈ Set.Ioi 0 ∧ range.high ∈ Set.Ioi 0 :=
  fun range member =>
    ⟨(ranges range member).positive, (ranges range member).positive.trans_le
      (ranges range member).ordered⟩

theorem allowsWidth_mergeSort {area width : α} {ratios : List (Interval α)} :
    AllowsWidth area (ratios.mergeSort rangeSortsBefore) width ↔ AllowsWidth area ratios width := by
  simp only [AllowsWidth, CoveredBy, List.mem_mergeSort]

theorem allowsHeight_mergeSort {area height : α} {ratios : List (Interval α)} :
    AllowsHeight area (ratios.mergeSort rangeSortsBefore) height ↔
      AllowsHeight area ratios height := by
  simp only [AllowsHeight, CoveredBy, List.mem_mergeSort]

section Soft

variable {area : α} {ratios : List (Interval α)}

theorem lands_changeHeight (name : String) (area : α) (nonempty : ratios ≠ []) (wanted : α) :
    Lands ((ratios.mergeSort rangeSortsBefore).map (heightRange area)) wanted
      ((soft name area ratios).changeHeight wanted).height := by
  have form : (soft name area ratios).form =
      .ofRatios area (ratios.mergeSort rangeSortsBefore) := rfl
  have limits : (ratios.mergeSort rangeSortsBefore).map (heightRange area) ≠ [] := by
    simpa [← List.length_pos_iff] using nonempty
  rw [changeHeight, form, Form.ofRatios]
  dsimp only
  rw [List.head?_eq_some_head limits, List.getLast?_eq_some_getLast limits]
  exact lands_nearestHeight (List.head?_eq_some_head limits)
    (List.getLast?_eq_some_getLast limits) wanted

theorem lands_changeWidth (name : String) (area : α) (nonempty : ratios ≠ []) (wanted : α) :
    Lands (((ratios.mergeSort rangeSortsBefore).map (widthRange area)).map mirrored) (-wanted)
      (-((soft name area ratios).changeWidth wanted).width) := by
  have form : (soft name area ratios).form =
      .ofRatios area (ratios.mergeSort rangeSortsBefore) := rfl
  have limits : (ratios.mergeSort rangeSortsBefore).map (widthRange area) ≠ [] := by
    simpa [← List.length_pos_iff] using nonempty
  rw [changeWidth, form, Form.ofRatios]
  dsimp only
  rw [List.head?_eq_some_head limits, List.getLast?_eq_some_getLast limits]
  exact lands_nearestWidth (List.head?_eq_some_head limits)
    (List.getLast?_eq_some_getLast limits) wanted

variable [ExactNumber.HasRoots α] (name : String) (positive : 0 < area) (nonempty : ratios ≠ [])
  (ranges : ∀ range ∈ ratios, IsRatioRange range)

include positive nonempty ranges

theorem isNearest_changeHeight_iff :
    (∀ wanted, IsNearest (AllowsHeight area ratios) wanted
        ((soft name area ratios).changeHeight wanted).height) ↔
      ReachGaps (ratios.mergeSort rangeSortsBefore) := by
  have kept := isRatioRange_mergeSort ranges
  have increasing := strictMonoOn_height positive
  have sorted := (areSorted_mergeSort ranges).map_image increasing (ends_pos kept)
  rw [← Interval.reachGaps_map_image increasing (ends_pos kept),
    ← sorted.isNearest_iff_reachGaps (lands_changeHeight name area nonempty)]
  refine forall_congr' fun wanted => isNearest_congr fun height => ?_
  rw [← allowsHeight_mergeSort]
  exact (coveredBy_heightRanges_iff positive kept).symm

theorem isNearest_changeWidth_iff :
    (∀ wanted, IsNearest (AllowsWidth area ratios) wanted
        ((soft name area ratios).changeWidth wanted).width) ↔
      ReachGaps (ratios.mergeSort rangeSortsBefore) := by
  have kept := isRatioRange_mergeSort ranges
  have increasing := strictMonoOn_neg_width positive
  have sorted := (areSorted_mergeSort ranges).map_image increasing (ends_pos kept)
  have lands (wanted : α) := lands_changeWidth name area nonempty (-wanted)
  simp only [neg_neg, map_mirrored_widthRange] at lands
  rw [← Interval.reachGaps_map_image increasing (ends_pos kept),
    ← sorted.isNearest_iff_reachGaps lands, ← (Equiv.neg α).forall_congr_right]
  refine forall_congr' fun wanted => ?_
  rw [← isNearest_neg, Equiv.neg_apply, neg_neg]
  refine isNearest_congr fun width => ?_
  rw [← allowsWidth_mergeSort, ← coveredBy_widthRanges_iff positive kept,
    ← Interval.coveredBy_map_mirrored, map_mirrored_widthRange]

/--
A resize gives a soft block an allowed size. It is the nearest to the wanted one, whichever that is,
just when the ranges reach as far in front of each gap between them, and at their end, as they do
anywhere before it.
-/
theorem resize_isNearest_iff :
    (∀ wanted, AllowsWidth area ratios ((soft name area ratios).changeWidth wanted).width ∧
        AllowsHeight area ratios ((soft name area ratios).changeHeight wanted).height) ∧
      ((∀ wanted, IsNearest (AllowsWidth area ratios) wanted
          ((soft name area ratios).changeWidth wanted).width) ↔
        ReachGaps (ratios.mergeSort rangeSortsBefore)) ∧
      ((∀ wanted, IsNearest (AllowsHeight area ratios) wanted
          ((soft name area ratios).changeHeight wanted).height) ↔
        ReachGaps (ratios.mergeSort rangeSortsBefore)) := by
  have kept := isRatioRange_mergeSort ranges
  refine ⟨fun wanted => ⟨?_, ?_⟩, isNearest_changeWidth_iff name positive nonempty ranges,
    isNearest_changeHeight_iff name positive nonempty ranges⟩
  · have sorted := (areSorted_mergeSort ranges).map_image (strictMonoOn_neg_width positive)
      (ends_pos kept)
    rw [← map_mirrored_widthRange] at sorted
    have covered := (lands_changeWidth name area nonempty wanted).coveredBy sorted.ordered
    rwa [Interval.coveredBy_map_mirrored, neg_neg, coveredBy_widthRanges_iff positive kept,
      allowsWidth_mergeSort] at covered
  · have sorted := (areSorted_mergeSort ranges).map_image (strictMonoOn_height positive)
      (ends_pos kept)
    have covered := (lands_changeHeight name area nonempty wanted).coveredBy sorted.ordered
    exact allowsHeight_mergeSort.mp ((coveredBy_heightRanges_iff positive kept).mp covered)

end Soft

theorem resize_isNearest_pair :
    let ratios : List (Interval ℝ) := [⟨4, 8⟩, ⟨1, 2⟩]
    ∀ wanted,
      IsNearest (AllowsWidth 100 ratios) wanted ((soft "core" 100 ratios).changeWidth wanted).width ∧
      IsNearest (AllowsHeight 100 ratios) wanted
        ((soft "core" 100 ratios).changeHeight wanted).height := by
  intro ratios wanted
  have ranges : ∀ range ∈ ratios, IsRatioRange range := by
    intro range member
    simp only [ratios, List.mem_cons, List.not_mem_nil, or_false] at member
    rcases member with rfl | rfl <;> constructor <;> norm_num [Interval.IsOrdered]
  have reach : ReachGaps (ratios.mergeSort rangeSortsBefore) := by
    apply (areSorted_mergeSort ranges).reachGaps
    simp only [List.mem_mergeSort, ratios, List.mem_cons, List.not_mem_nil, or_false]
    rintro _ (rfl | rfl) _ (rfl | rfl) <;> norm_num
  obtain ⟨_, widths, heights⟩ :=
    resize_isNearest_iff "core" (by norm_num : (0 : ℝ) < 100) (by simp [ratios]) ranges
  exact ⟨widths.mpr reach wanted, heights.mpr reach wanted⟩

/-- Where one range lies inside another, a resize may miss even a wanted size that is allowed. -/
theorem resize_misses_nested :
    let ratios : List (Interval ℝ) := [⟨1, 9⟩, ⟨9 / 4, 4⟩]
    AllowsWidth 36 ratios 2 ∧ ((soft "core" 36 ratios).changeWidth 2).width = 3 ∧
      AllowsHeight 36 ratios 18 ∧ ((soft "core" 36 ratios).changeHeight 18).height = 12 ∧
      ¬ ∀ wanted, IsNearest (AllowsWidth 36 ratios) wanted
        ((soft "core" 36 ratios).changeWidth wanted).width := by
  intro ratios
  have sorted : ratios.mergeSort rangeSortsBefore = ratios := by
    apply List.mergeSort_of_pairwise
    simp only [ratios, List.pairwise_pair, rangeSortsBefore, Number.sortsBefore]
    norm_num
  have root {square : ℝ} (side : ℝ) (nonneg : 0 ≤ side) (isSquare : square = side * side) :
      Number.sqrt square = side := isSquare ▸ sqrt_mul_self_eq nonneg
  have wide : heightRange (36 : ℝ) ⟨1, 9⟩ = ⟨6, 18⟩ := by
    rw [heightRange, root 6 (by norm_num) (by norm_num), root 18 (by norm_num) (by norm_num)]
  have narrow : heightRange (36 : ℝ) ⟨9 / 4, 4⟩ = ⟨9, 12⟩ := by
    rw [heightRange, root 9 (by norm_num) (by norm_num), root 12 (by norm_num) (by norm_num)]
  have form : (soft "core" 36 ratios).form =
      .soft ratios [⟨2, 6⟩, ⟨3, 4⟩] [⟨6, 18⟩, ⟨9, 12⟩] := by
    change Form.ofRatios 36 (ratios.mergeSort rangeSortsBefore) = _
    rw [sorted, Form.ofRatios]
    simp only [ratios, List.map_cons, List.map_nil, widthRange, wide, narrow]
    norm_num
  have width : ((soft "core" 36 ratios).changeWidth 2).width = 3 := by
    rw [changeWidth, form]
    norm_num [nearestWidth]
  have height : ((soft "core" 36 ratios).changeHeight 18).height = 12 := by
    rw [changeHeight, form]
    norm_num [nearestHeight]
  have allowed : AllowsWidth 36 ratios 2 :=
    ⟨by norm_num, ⟨1, 9⟩, List.mem_cons_self, by norm_num [Interval.Covers]⟩
  refine ⟨allowed, width, ?_, height, fun nearest => ?_⟩
  · exact ⟨by norm_num, ⟨1, 9⟩, List.mem_cons_self, by norm_num [Interval.Covers]⟩
  · have least := (nearest 2).least 2 allowed
    rw [width] at least
    norm_num at least

end Block

end Floorplanner
