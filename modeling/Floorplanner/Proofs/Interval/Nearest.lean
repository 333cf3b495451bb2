import Mathlib
import Floorplanner.Proofs.Block.Shape

/-!
The nearest number that some ranges cover.

Ranges in order of their lower ends are searched for the first that a wanted number does not lie
beyond, and the range before that one, or the last of all, is taken for the one that reaches furthest
among those that are passed. So the search lands on the nearest covered number for every wanted one
just when this is so in front of every gap between the ranges and at their end. Ranges that lie
within others may break it.
-/

namespace Floorplanner

variable {α : Type} [ExactNumber α]

/-- An allowed number to which no other one is nearer than the wanted one is. -/
structure IsNearest (allowed : α → Prop) (wanted value : α) : Prop where
  holds : allowed value
  least : ∀ other, allowed other → |wanted - value| ≤ |wanted - other|

structure IsNearer (first second wanted value : α) : Prop where
  chosen : value = first ∨ value = second
  first_le : |wanted - value| ≤ |wanted - first|
  second_le : |wanted - value| ≤ |wanted - second|

section Distance

variable {allowed admitted : α → Prop} {first second wanted value other : α}

theorem distance_le_of_le_of_le (further : other ≤ value) (low : value ≤ wanted) :
    |wanted - value| ≤ |wanted - other| := by
  rw [abs_of_nonneg (sub_nonneg.mpr low), abs_of_nonneg (sub_nonneg.mpr (further.trans low))]
  exact sub_le_sub_left further wanted

theorem distance_le_of_ge_of_ge (further : value ≤ other) (high : wanted ≤ value) :
    |wanted - value| ≤ |wanted - other| := by
  rw [abs_sub_comm, abs_sub_comm wanted, abs_of_nonneg (sub_nonneg.mpr high),
    abs_of_nonneg (sub_nonneg.mpr (high.trans further))]
  exact sub_le_sub_right further wanted

theorem distance_neg (wanted other : α) : |-wanted - -other| = |wanted - other| := by
  rw [neg_sub_neg, abs_sub_comm]

theorem IsNearer.neg (nearer : IsNearer first second wanted value) :
    IsNearer (-second) (-first) (-wanted) (-value) where
  chosen := nearer.chosen.symm.imp (congrArg Neg.neg) (congrArg Neg.neg)
  first_le := by
    rw [distance_neg, distance_neg]
    exact nearer.second_le
  second_le := by
    rw [distance_neg, distance_neg]
    exact nearer.first_le

theorem isNearest_congr (same : ∀ number, allowed number ↔ admitted number) :
    IsNearest allowed wanted value ↔ IsNearest admitted wanted value := by
  rw [funext fun number => propext (same number)]

theorem isNearest_neg :
    IsNearest (fun number => allowed (-number)) (-wanted) (-value) ↔
      IsNearest allowed wanted value := by
  constructor
  · intro nearest
    refine ⟨neg_neg value ▸ nearest.holds, fun other isAllowed => ?_⟩
    have further := nearest.least (-other) ((neg_neg other).symm ▸ isAllowed)
    rwa [distance_neg, distance_neg] at further
  · intro nearest
    refine ⟨(neg_neg value).symm ▸ nearest.holds, fun other isAllowed => ?_⟩
    have further := nearest.least (-other) isAllowed
    rwa [← distance_neg wanted value, ← distance_neg wanted, neg_neg other] at further

end Distance

namespace Interval

variable {ranges before after : List (Interval α)} {last : Interval α} {wanted value : α}

def CoveredBy (ranges : List (Interval α)) (value : α) : Prop :=
  ∃ range ∈ ranges, range.Covers value

structure AreSorted (ranges : List (Interval α)) : Prop where
  ordered : ∀ range ∈ ranges, range.IsOrdered
  lows : ranges.Pairwise fun first second => first.low ≤ second.low

/-- In front of every gap, and at the end, the last range reaches as far as those before it. -/
def ReachGaps (ranges : List (Interval α)) : Prop :=
  ∀ before last after, ranges = before ++ last :: after →
    (∀ above ∈ after, ∀ below ∈ before ++ [last], below.high < above.low) →
    ∀ below ∈ before, below.high ≤ last.high

omit [ExactNumber α] in
theorem mem_of_mem_front {range : Interval α} (member : range ∈ before ++ [last]) :
    range ∈ before ++ last :: after := by
  rw [List.append_cons]
  exact List.mem_append_left _ member

theorem ReachGaps.high_le (reach : ReachGaps (before ++ last :: after))
    (gap : ∀ above ∈ after, ∀ below ∈ before ++ [last], below.high < above.low)
    {range : Interval α} (member : range ∈ before ++ [last]) : range.high ≤ last.high := by
  rcases List.mem_append.mp member with earlier | isLast
  · exact reach before last after rfl gap range earlier
  · rw [List.mem_singleton.mp isLast]

/--
Where a wanted number is brought by ranges in order: to an end of all if it lies beyond, nowhere if
a range covers it, and in a gap to the nearer of the ends of the two ranges around the gap.
-/
inductive Lands (ranges : List (Interval α)) (wanted : α) : α → Prop
  | below {first : Interval α} (starts : ranges.head? = some first) (low : wanted ≤ first.low) :
      Lands ranges wanted first.low
  | above {last : Interval α} (ends : ranges.getLast? = some last) (high : last.high ≤ wanted) :
      Lands ranges wanted last.high
  | within {last : Interval α} (covered : CoveredBy ranges wanted)
      (ends : ranges.getLast? = some last) (low : wanted < last.high) :
      Lands ranges wanted wanted
  | gap {before after : List (Interval α)} {last next : Interval α} {value : α}
      (split : ranges = before ++ last :: next :: after)
      (high : ∀ range ∈ before ++ [last], range.high < wanted) (low : wanted < next.low)
      (nearer : IsNearer last.high next.low wanted value) :
      Lands ranges wanted value

theorem CoveredBy.of_mem {range : Interval α} (member : range ∈ ranges)
    (covers : range.Covers value) : CoveredBy ranges value :=
  ⟨range, member, covers⟩

/-- The first range that a number does not lie beyond decides where it lands. -/
theorem Lands.of_reaches {passed rest : List (Interval α)} {first range last : Interval α}
    (starts : (passed ++ range :: rest).head? = some first)
    (ends : (passed ++ range :: rest).getLast? = some last) (low : first.low < wanted)
    (high : wanted < last.high) (below : ∀ other ∈ passed, other.high < wanted)
    (reaches : wanted ≤ range.high) (inside : range.low ≤ wanted → value = wanted)
    (outside : ∀ previous ∈ passed.getLast?, wanted < range.low →
      IsNearer previous.high range.low wanted value) :
    Lands (passed ++ range :: rest) wanted value := by
  rcases le_or_gt range.low wanted with least | gap
  · rw [inside least]
    exact .within (.of_mem (by simp) ⟨least, reaches⟩) ends high
  · cases passed using List.reverseRecOn with
    | nil =>
        rw [List.nil_append, List.head?_cons, Option.some.injEq] at starts
        subst starts
        exact absurd low gap.not_gt
    | append_singleton passed previous =>
        have split : (passed ++ [previous]) ++ range :: rest =
            passed ++ previous :: range :: rest := by simp
        exact .gap split below gap (outside previous (by simp) gap)

theorem Lands.coveredBy (ordered : ∀ range ∈ ranges, range.IsOrdered)
    (lands : Lands ranges wanted value) : CoveredBy ranges value := by
  cases lands with
  | below starts =>
      have member := List.mem_of_head? starts
      exact .of_mem member (ordered _ member).covers_low
  | above ends =>
      have member := List.mem_of_getLast? ends
      exact .of_mem member (ordered _ member).covers_high
  | within covered => exact covered
  | @gap before after last next value split _ _ nearer =>
      have lastMember : last ∈ ranges := by simp [split]
      have nextMember : next ∈ ranges := by simp [split]
      rcases nearer.chosen with rfl | rfl
      · exact .of_mem lastMember (ordered _ lastMember).covers_high
      · exact .of_mem nextMember (ordered _ nextMember).covers_low

theorem Lands.holds (holds : α → Prop) (lands : Lands ranges wanted value)
    (atWanted : holds wanted) (atEnds : ∀ range ∈ ranges, holds range.low ∧ holds range.high) :
    holds value := by
  cases lands with
  | below starts => exact (atEnds _ (List.mem_of_head? starts)).1
  | above ends => exact (atEnds _ (List.mem_of_getLast? ends)).2
  | within => exact atWanted
  | @gap before after last next value split _ _ nearer =>
      rcases nearer.chosen with rfl | rfl
      · exact (atEnds last (by simp [split])).2
      · exact (atEnds next (by simp [split])).1

namespace AreSorted

theorem first_le (sorted : AreSorted ranges) {first range : Interval α}
    (starts : ranges.head? = some first) (member : range ∈ ranges) : first.low ≤ range.low := by
  obtain ⟨rest, rfl⟩ := List.head?_eq_some_iff.mp starts
  rcases List.mem_cons.mp member with rfl | later
  · exact le_refl _
  · exact (List.pairwise_cons.mp sorted.lows).1 range later

theorem le_after (sorted : AreSorted (before ++ last :: after)) {above : Interval α}
    (member : above ∈ after) : last.low ≤ above.low :=
  (List.pairwise_cons.mp (List.pairwise_append.mp sorted.lows).2.1).1 above member

theorem isNearest_of_lands (sorted : AreSorted ranges) (reach : ReachGaps ranges)
    (lands : Lands ranges wanted value) : IsNearest (CoveredBy ranges) wanted value := by
  refine ⟨lands.coveredBy sorted.ordered, fun other ⟨range, member, covers⟩ => ?_⟩
  cases lands with
  | below starts low =>
      exact distance_le_of_ge_of_ge ((sorted.first_le starts member).trans covers.1) low
  | @above last ends high =>
      obtain ⟨before, rfl⟩ := List.getLast?_eq_some_iff.mp ends
      have beyond := reach.high_le nofun member
      exact distance_le_of_le_of_le (covers.2.trans beyond) high
  | within =>
      rw [sub_self, abs_zero]
      exact abs_nonneg _
  | @gap before after last next value split high low nearer =>
      subst split
      have later : ∀ above ∈ next :: after, next.low ≤ above.low := by
        intro above isAbove
        rcases List.mem_cons.mp isAbove with rfl | further
        · exact le_refl _
        · have shifted : AreSorted ((before ++ [last]) ++ next :: after) := by simpa using sorted
          exact shifted.le_after further
      have isApart : ∀ above ∈ next :: after, ∀ below ∈ before ++ [last],
          below.high < above.low :=
        fun above isAbove below isBelow =>
          (high below isBelow).trans (low.trans_le (later above isAbove))
      rw [List.append_cons, List.mem_append] at member
      rcases member with isBelow | isAbove
      · have beyond := reach.high_le isApart isBelow
        exact nearer.first_le.trans (distance_le_of_le_of_le (covers.2.trans beyond) (high last (by simp)).le)
      · exact nearer.second_le.trans (distance_le_of_ge_of_ge ((later range isAbove).trans covers.1) low.le)

theorem append_inj_of_high {front back others rest : List (Interval α)}
    (same : front ++ back = others ++ rest)
    (frontHigh : ∀ range ∈ front, range.high < wanted)
    (backHigh : ∀ range ∈ back, ¬ range.high < wanted)
    (othersHigh : ∀ range ∈ others, range.high < wanted)
    (restHigh : ∀ range ∈ rest.head?, ¬ range.high < wanted) : front = others ∧ back = rest := by
  have prefixes := congrArg (List.takeWhile fun range => decide (range.high < wanted)) same
  have stop {list : List (Interval α)} (head : ∀ range ∈ list.head?, ¬ range.high < wanted) :
      (list.takeWhile fun range => decide (range.high < wanted)) = [] := by
    rw [← List.head?_eq_none_iff, List.head?_takeWhile, Option.filter_eq_none_iff]
    simpa using head
  rw [List.takeWhile_append_of_pos (by simpa using frontHigh),
    List.takeWhile_append_of_pos (by simpa using othersHigh), stop restHigh,
    stop fun range isHead => backHigh range (List.mem_of_mem_head? isHead), List.append_nil,
    List.append_nil] at prefixes
  subst prefixes
  exact ⟨rfl, List.append_cancel_left same⟩

/-- In a gap, what the last range before it and the ranges behind it offer is all there is. -/
theorem eq_of_lands (sorted : AreSorted (before ++ last :: after))
    (high : ∀ below ∈ before ++ [last], below.high < wanted)
    (low : ∀ above ∈ after, wanted < above.low)
    (lands : Lands (before ++ last :: after) wanted value) :
    value = last.high ∨ ∃ above ∈ after, value = above.low := by
  rw [List.append_cons] at lands sorted
  have notBelow : ∀ above ∈ after, ¬ above.high < wanted := fun above isAbove reaches => by
    have ordered := sorted.ordered above (List.mem_append_right _ isAbove)
    exact absurd (reaches.trans (low above isAbove)) (not_lt.mpr ordered)
  cases lands with
  | @below first starts further =>
      have isBelow : first ∈ before ++ [last] := by
        rw [List.head?_append_of_ne_nil _ (by simp)] at starts
        exact List.mem_of_head? starts
      have ordered := sorted.ordered first (List.mem_append_left _ isBelow)
      exact absurd (high first isBelow) (not_lt.mpr (further.trans ordered))
  | @above ending ends further =>
      rw [List.getLast?_append] at ends
      cases final : after.getLast? with
      | none =>
          rw [final, Option.none_or, List.getLast?_concat] at ends
          exact .inl (by rw [Option.some.inj ends])
      | some above =>
          rw [final, Option.some_or, Option.some.injEq] at ends
          subst ends
          have isAbove := List.mem_of_getLast? final
          have ordered := sorted.ordered above (List.mem_append_right _ isAbove)
          exact absurd (low above isAbove) (not_lt.mpr (ordered.trans further))
  | within covered =>
      obtain ⟨range, member, covers⟩ := covered
      rcases List.mem_append.mp member with isBelow | isAbove
      · exact absurd (high range isBelow) (not_lt.mpr covers.2)
      · exact absurd (low range isAbove) (not_lt.mpr covers.1)
  | @gap passed rest ending next value split passedHigh nextLow nearer =>
      have nextNot : ¬ next.high < wanted := fun reaches => by
        have ordered := sorted.ordered next (by simp [split])
        exact absurd (reaches.trans nextLow) (not_lt.mpr ordered)
      rw [List.append_cons passed] at split
      obtain ⟨fronts, rfl⟩ := append_inj_of_high split high notBelow passedHigh
        (by simpa using nextNot)
      have isLast : last = ending := by
        simpa using congrArg List.getLast? fronts
      rcases nearer.chosen with low | high
      · exact .inl (by rw [low, isLast])
      · exact .inr ⟨next, List.mem_cons_self, high⟩

theorem exists_between (furthest : α)
    (rows : after.Pairwise fun first second => first.low ≤ second.low)
    (gap : ∀ above ∈ after, furthest < above.low) :
    ∃ wanted, furthest < wanted ∧
      ∀ above ∈ after, wanted < above.low ∧ wanted - furthest < above.low - wanted := by
  cases after with
  | nil => exact ⟨furthest + 1, lt_add_one furthest, nofun⟩
  | cons next rest =>
      have room := gap next List.mem_cons_self
      refine ⟨furthest + (next.low - furthest) / 4, by linarith, fun above member => ?_⟩
      have further : next.low ≤ above.low := by
        rcases List.mem_cons.mp member with rfl | later
        · exact le_refl _
        · exact (List.pairwise_cons.mp rows).1 above later
      constructor <;> linarith

theorem reachGaps_of_isNearest (sorted : AreSorted ranges) {choose : α → α}
    (lands : ∀ wanted, Lands ranges wanted (choose wanted))
    (nearest : ∀ wanted, IsNearest (CoveredBy ranges) wanted (choose wanted)) :
    ReachGaps ranges := by
  rintro before last after rfl gap below isBelow
  by_contra shorter
  obtain ⟨furthest, member, greatest⟩ := Set.exists_max_image {range | range ∈ before ++ [last]}
    (fun range => range.high) (List.finite_toSet _) ⟨last, by simp⟩
  have beyond : last.high < furthest.high :=
    (not_le.mp shorter).trans_le (greatest below (List.mem_append_left _ isBelow))
  have rows := (List.pairwise_cons.mp (List.pairwise_append.mp sorted.lows).2.1).2
  obtain ⟨wanted, low, high⟩ :=
    exists_between furthest.high rows fun above isAbove => gap above isAbove furthest member
  have covered : CoveredBy (before ++ last :: after) furthest.high := by
    have within : furthest ∈ before ++ last :: after := mem_of_mem_front member
    exact .of_mem within (sorted.ordered furthest within).covers_high
  have least := (nearest wanted).least furthest.high covered
  rw [abs_of_nonneg (sub_nonneg.mpr low.le)] at least
  rcases sorted.eq_of_lands (fun range isBelow => (greatest range isBelow).trans_lt low)
    (fun above isAbove => (high above isAbove).1) (lands wanted) with
    ofLast | ⟨above, isAbove, ofAbove⟩
  · rw [ofLast, abs_of_nonneg (sub_nonneg.mpr (beyond.trans low).le)] at least
    exact absurd (sub_le_sub_iff_left wanted |>.mp least) (not_le.mpr beyond)
  · have far := high above isAbove
    rw [ofAbove, abs_sub_comm, abs_of_nonneg (sub_nonneg.mpr far.1.le)] at least
    exact absurd least (not_le.mpr far.2)

/-- Ranges bring every number to the nearest one they cover just when they reach their gaps. -/
theorem isNearest_iff_reachGaps (sorted : AreSorted ranges) {choose : α → α}
    (lands : ∀ wanted, Lands ranges wanted (choose wanted)) :
    (∀ wanted, IsNearest (CoveredBy ranges) wanted (choose wanted)) ↔ ReachGaps ranges :=
  ⟨sorted.reachGaps_of_isNearest lands, fun reach wanted =>
    sorted.isNearest_of_lands reach (lands wanted)⟩

end AreSorted

/-- Ranges none of which lies inside another reach their gaps. -/
theorem AreSorted.reachGaps (sorted : AreSorted ranges)
    (crossing : ∀ first ∈ ranges, ∀ second ∈ ranges,
      first.low ≤ second.low → first.high ≤ second.high) : ReachGaps ranges := by
  rintro before last after rfl _ below isBelow
  apply crossing below (by simp [isBelow]) last (by simp)
  exact (List.pairwise_append.mp sorted.lows).2.2 below isBelow last List.mem_cons_self

section Image

def image (f : α → α) (range : Interval α) : Interval α := ⟨f range.low, f range.high⟩

variable {f : α → α} {domain : Set α} (increasing : StrictMonoOn f domain)
  (ends : ∀ range ∈ ranges, range.low ∈ domain ∧ range.high ∈ domain)

include increasing ends

theorem AreSorted.map_image (sorted : AreSorted ranges) : AreSorted (ranges.map (image f)) where
  ordered := by
    rw [List.forall_mem_map]
    intro range member
    exact (increasing.le_iff_le (ends range member).1 (ends range member).2).mpr
      (sorted.ordered range member)
  lows := by
    refine List.pairwise_map.mpr (sorted.lows.imp_of_mem fun first second le => ?_)
    exact (increasing.le_iff_le (ends _ first).1 (ends _ second).1).mpr le

theorem reachGaps_map_image : ReachGaps (ranges.map (image f)) ↔ ReachGaps ranges := by
  have gaps {first second : Interval α} (isFirst : first ∈ ranges) (isSecond : second ∈ ranges) :
      (image f first).high < (image f second).low ↔ first.high < second.low :=
    increasing.lt_iff_lt (ends first isFirst).2 (ends second isSecond).1
  have highs {first second : Interval α} (isFirst : first ∈ ranges) (isSecond : second ∈ ranges) :
      (image f first).high ≤ (image f second).high ↔ first.high ≤ second.high :=
    increasing.le_iff_le (ends first isFirst).2 (ends second isSecond).2
  constructor
  · rintro reach before last after rfl gap below isBelow
    rw [← highs (by simp [isBelow]) (by simp)]
    refine reach (before.map (image f)) (image f last) (after.map (image f)) (by simp) ?_ _
      (List.mem_map_of_mem isBelow)
    rw [← List.map_singleton, ← List.map_append]
    simp only [List.forall_mem_map]
    intro above isAbove passed isPassed
    have within : passed ∈ before ++ last :: after := mem_of_mem_front isPassed
    exact (gaps within (by simp [isAbove])).mpr (gap above isAbove passed isPassed)
  · intro reach _ _ _ split gap other isBelow
    obtain ⟨before, behind, rfl, rfl, tail⟩ := List.map_eq_append_iff.mp split
    obtain ⟨last, after, rfl, rfl, rfl⟩ := List.map_eq_cons_iff.mp tail
    rw [← List.map_singleton, ← List.map_append] at gap
    simp only [List.forall_mem_map] at gap
    obtain ⟨below, member, rfl⟩ := List.mem_map.mp isBelow
    rw [highs (by simp [member]) (by simp)]
    refine reach before last after rfl (fun above isAbove passed isPassed => ?_) below member
    have within : passed ∈ before ++ last :: after := mem_of_mem_front isPassed
    exact (gaps within (by simp [isAbove])).mp (gap above isAbove passed isPassed)

end Image

def mirrored (range : Interval α) : Interval α := ⟨-range.high, -range.low⟩

theorem covers_mirrored {range : Interval α} :
    range.mirrored.Covers value ↔ range.Covers (-value) := by
  rw [Covers, Covers, mirrored, neg_le, le_neg]
  exact And.comm

theorem coveredBy_map_mirrored :
    CoveredBy (ranges.map mirrored) value ↔ CoveredBy ranges (-value) := by
  simp only [CoveredBy, List.mem_map, exists_exists_and_eq_and, covers_mirrored]

end Interval

end Floorplanner
