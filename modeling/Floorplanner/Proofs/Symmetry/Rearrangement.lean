import Mathlib
import Floorplanner.Proofs.Cost.Raster

/-!
The same layout in another order.

What a problem lists may stand in any order, and so may the blocks of a layout, if nets and locations
refer to them where they now are. The terms of the cost are sums over these lists, and neither the
box around some pins nor the lines along some edges depend on an order.
-/

namespace Floorplanner

variable {α : Type} [ExactNumber α]

structure Net.Rearranges (rename : BlockRef → BlockRef) (net other : Net) : Prop where
  blocks : other.blocks.Perm (net.blocks.map rename)
  terminals : other.terminals.Perm net.terminals
  weight : other.weight = net.weight

def Location.rename (rename : BlockRef → BlockRef) (location : Location α) : Location α :=
  ⟨rename location.block, location.rect⟩

structure Problem.Rearranges (rename : BlockRef → BlockRef) (problem other : Problem α)
    (before after : List (Block α)) : Prop where
  outline : other.outline = problem.outline
  blocks : after.Perm before
  renamed : ∀ ref, after[(rename ref).index]? = before[ref.index]?
  nets : ∃ nets, List.Forall₂ (Net.Rearranges rename) problem.nets nets ∧ other.nets.Perm nets
  terminals : other.terminals = problem.terminals
  regions : other.regions.Perm problem.regions
  locations : other.locations.Perm (problem.locations.map (Location.rename rename))

namespace Cost

variable {points others : List (Point α)}

theorem boundingBox?_eq_of_perm (same : points.Perm others) :
    boundingBox? points = boundingBox? others := by
  have commutes : RightCommutative fun (box : Rect α) (point : Point α) =>
      (⟨min box.lx point.x, min box.ly point.y, max box.ux point.x, max box.uy point.y⟩ : Rect α) :=
    ⟨fun box first second => by
      simp only [min_right_comm _ first.x, min_right_comm _ first.y, max_right_comm _ first.x,
        max_right_comm _ first.y]⟩
  induction same with
  | nil => rfl
  | cons point rest _ => exact congrArg some (rest.foldl_eq _)
  | swap first second rest =>
      simp [boundingBox?, min_comm, max_comm]
  | trans _ _ first second => exact first.trans second

section Terms

variable {rename : BlockRef → BlockRef} {problem other : Problem α} {before after : List (Block α)}
  (same : problem.Rearranges rename other before after)

include same

theorem netLength_rearranged {net moved : Net} (pinned : net.Rearranges rename moved) :
    netLength other after moved = netLength problem before net := by
  have blocks : (moved.blocks.filterMap fun ref => after[ref.index]?.map (·.center)).Perm
      (net.blocks.filterMap fun ref => before[ref.index]?.map (·.center)) := by
    refine (pinned.blocks.filterMap _).trans ?_
    simp only [List.filterMap_map, Function.comp_def, same.renamed]
    rfl
  have terminals := pinned.terminals.filterMap fun ref =>
    problem.terminals[ref.index]?.map fun terminal => (⟨terminal.x, terminal.y⟩ : Point α)
  have box : boundingBox? (pins other after moved) = boundingBox? (pins problem before net) := by
    apply boundingBox?_eq_of_perm
    rw [pins, pins, same.terminals]
    exact blocks.append terminals
  rw [netLength, netLength, box, pinned.weight]

theorem wirelength_rearranged : wirelength other after = wirelength problem before := by
  obtain ⟨nets, pinned, perm⟩ := same.nets
  rw [wirelength_eq_sum, wirelength_eq_sum, (perm.map _).sum_eq]
  refine congrArg List.sum ?_
  rw [← List.forall₂_eq_eq_eq, List.forall₂_map_left_iff, List.forall₂_map_right_iff]
  exact (pinned.imp fun _ _ pinned => netLength_rearranged same pinned).flip

theorem boundaryPenalty_rearranged (outline : Size α) :
    boundaryPenalty outline after = boundaryPenalty outline before := by
  rw [boundaryPenalty_eq_sum, boundaryPenalty_eq_sum]
  exact ((same.blocks.filter _).map _).sum_eq

theorem blockage_rearranged : blockage after = blockage before :=
  funext fun _ => ((same.blocks.filter _).map _).sum_eq

theorem macroBlockage_rearranged : macroBlockage other after = macroBlockage problem before := by
  rw [macroBlockage_eq_sum, macroBlockage_eq_sum, blockage_rearranged same]
  exact (same.regions.map _).sum_eq

theorem locationPenalty_rearranged :
    locationPenalty other after = locationPenalty problem before := by
  rw [locationPenalty_eq_sum, locationPenalty_eq_sum, (same.locations.map _).sum_eq, List.map_map]
  refine congrArg List.sum (List.map_congr_left fun location _ => ?_)
  simp only [Function.comp_apply, guideGap, Location.rename, same.renamed]

end Terms

end Cost

namespace Notch

variable (outline size thresholds : Size α) {rects others : List (Rect α)}

theorem ofRects_eq_of_perm (same : rects.Perm others) :
    Grid.ofRects outline rects = Grid.ofRects outline others := by
  have lines (edges : Rect α → List α) (extent : α) :
      gridLines (rects.flatMap edges) extent = gridLines (others.flatMap edges) extent :=
    (areLines_gridLines _ _).eq_of_mem_iff (areLines_gridLines _ _) fun _ =>
      (same.flatMap_right edges).mem_iff
  rw [Grid.ofRects, Grid.ofRects, lines, lines]

theorem isCovered_eq_of_perm {patches again : List Patch} (same : patches.Perm again) :
    isCovered patches = isCovered again := by
  funext column row
  exact same.any_eq

theorem isNotch_eq_of_perm (grid : Grid α) {patches again : List Patch}
    (same : patches.Perm again) : isNotch grid patches = isNotch grid again := by
  funext thresholds column row
  rw [isNotch, isNotch, isEnclosed, isEnclosed, isCovered_eq_of_perm same]

theorem total_eq_of_perm (same : rects.Perm others) :
    total outline thresholds rects = total outline thresholds others := by
  rw [total, total, ofRects_eq_of_perm outline same, isNotch_eq_of_perm _ (same.map _)]

theorem penalty_eq_of_perm {before after : List (Block α)} (same : after.Perm before) :
    penalty outline size after thresholds = penalty outline size before thresholds := by
  rw [penalty, penalty, total_eq_of_perm outline thresholds ((same.filter _).map _)]

end Notch

/-- The terms of a layout do not depend on the order of anything that is listed. -/
theorem Cost.evaluate_rearranged {rename : BlockRef → BlockRef} {problem other : Problem α}
    {before after : List (Block α)} (same : problem.Rearranges rename other before after)
    (notching : Config.Notching α) (size : Size α) :
    evaluate other notching after size = evaluate problem notching before size := by
  rw [evaluate, evaluate, wirelength_rearranged same, boundaryPenalty_rearranged same,
    macroBlockage_rearranged same, locationPenalty_rearranged same, same.outline,
    Notch.penalty_eq_of_perm _ _ _ same.blocks]

end Floorplanner
