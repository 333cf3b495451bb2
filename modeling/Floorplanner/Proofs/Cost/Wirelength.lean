import Mathlib
import Floorplanner.Proofs.Cost.Nonneg
import Floorplanner.Proofs.Extremes

/-!
The wirelength of a layout.

A net is as long as half the perimeter of the smallest box around its pins, times its weight. The box
depends on where there are pins and on nothing else: neither on their order or number nor on where
the origin is. So a net with more pins is no shorter, and one whose pins are all in one place has no
length.
-/

namespace Floorplanner

variable {α : Type}

def Point.along (point : Point α) : Axis → α
  | .x => point.x
  | .y => point.y

@[simps] def Point.translate [Add α] (offset point : Point α) : Point α :=
  ⟨point.x + offset.x, point.y + offset.y⟩

@[simps] def Terminal.translate [Add α] (offset : Point α) (terminal : Terminal α) : Terminal α :=
  ⟨terminal.name, terminal.x + offset.x, terminal.y + offset.y⟩

def Block.translate [Add α] (offset : Point α) (block : Block α) : Block α :=
  block.moveTo (block.x + offset.x) (block.y + offset.y)

structure Net.IsPartOf (net other : Net) : Prop where
  blocks : net.blocks ⊆ other.blocks
  terminals : net.terminals ⊆ other.terminals
  weight : other.weight = net.weight

variable [ExactNumber α]

namespace Cost

def spread (values : Finset α) : α :=
  if some : values.Nonempty then values.max' some - values.min' some else 0

def halfPerimeter (places : Finset (Point α)) : α :=
  spread (places.image (·.along .x)) + spread (places.image (·.along .y))

/-- The places where a net has pins: the centers of its blocks, and its terminals. -/
def pinPlaces (problem : Problem α) (blocks : List (Block α)) (net : Net) : Finset (Point α) :=
  (net.blocks.toFinset.biUnion fun ref => (blocks[ref.index]?.map Block.center).toFinset) ∪
    net.terminals.toFinset.biUnion fun ref =>
      (problem.terminals[ref.index]?.map fun terminal => ⟨terminal.x, terminal.y⟩).toFinset

section Spread

variable {values others : Finset α} {low high : α}

theorem spread_eq (least : IsLeast (values : Set α) low) (greatest : IsGreatest (values : Set α) high) :
    spread values = high - low := by
  have some : values.Nonempty := ⟨low, least.1⟩
  rw [spread, dif_pos some, (values.isLeast_min' some).unique least,
    (values.isGreatest_max' some).unique greatest]

theorem spread_nonneg (values : Finset α) : 0 ≤ spread values := by
  rw [spread]
  split
  next some => exact sub_nonneg.mpr (values.min'_le _ (values.max'_mem some))
  next => exact le_rfl

theorem spread_mono (subset : values ⊆ others) : spread values ≤ spread others := by
  by_cases some : values.Nonempty
  · rw [spread, spread, dif_pos some, dif_pos (some.mono subset)]
    exact sub_le_sub (Finset.max'_subset some subset) (Finset.min'_subset some subset)
  · rw [spread, dif_neg some]
    exact spread_nonneg others

theorem spread_eq_zero (single : (values : Set α).Subsingleton) : spread values = 0 := by
  rw [spread]
  split
  next some => exact sub_eq_zero.mpr (single (values.max'_mem some) (values.min'_mem some))
  next => rfl

end Spread

section Box

variable {points : List (Point α)} {places : Finset (Point α)} {box : Rect α}

/-- The four sides of a box are found independently of each other. -/
theorem boundingBox?_cons (first : Point α) (rest : List (Point α)) :
    boundingBox? (first :: rest) =
      some ⟨(rest.map Point.x).foldl min first.x, (rest.map Point.y).foldl min first.y,
        (rest.map Point.x).foldl max first.x, (rest.map Point.y).foldl max first.y⟩ := by
  have sides (start : Rect α) : rest.foldl
      (fun box point =>
        ⟨min box.lx point.x, min box.ly point.y, max box.ux point.x, max box.uy point.y⟩) start =
      (⟨(rest.map Point.x).foldl min start.lx, (rest.map Point.y).foldl min start.ly,
        (rest.map Point.x).foldl max start.ux, (rest.map Point.y).foldl max start.uy⟩ : Rect α) := by
    induction rest generalizing start with
    | nil => rfl
    | cons point rest induction => exact induction _
  exact congrArg some (sides _)

/-- The box around some points ends, along each axis, at the least and the greatest of them. -/
theorem boundingBox?_bounds (bounds : boundingBox? points = some box) (axis : Axis) :
    IsLeast {value | value ∈ points.map (·.along axis)} (box.span axis).low ∧
      IsGreatest {value | value ∈ points.map (·.along axis)} (box.span axis).high := by
  cases points with
  | nil => cases bounds
  | cons first rest =>
      rw [boundingBox?_cons] at bounds
      cases bounds
      cases axis with
      | x => exact ⟨isLeast_foldl_min _ _, isGreatest_foldl_max _ _⟩
      | y => exact ⟨isLeast_foldl_min _ _, isGreatest_foldl_max _ _⟩

theorem spread_of_boundingBox? (same : ∀ place, place ∈ places ↔ place ∈ points)
    (bounds : boundingBox? points = some box) (axis : Axis) :
    spread (places.image (·.along axis)) = (box.span axis).length := by
  have values : ((places.image (·.along axis) : Finset α) : Set α) =
      {value | value ∈ points.map (·.along axis)} := by
    ext value
    simp [same]
  obtain ⟨least, greatest⟩ := boundingBox?_bounds bounds axis
  rw [← values] at least greatest
  exact spread_eq least greatest

end Box

section HalfPerimeter

variable {places others : Finset (Point α)}

theorem halfPerimeter_mono (subset : places ⊆ others) :
    halfPerimeter places ≤ halfPerimeter others :=
  add_le_add (spread_mono (Finset.image_subset_image subset))
    (spread_mono (Finset.image_subset_image subset))

theorem halfPerimeter_eq_zero (single : (places : Set (Point α)).Subsingleton) :
    halfPerimeter places = 0 := by
  have along (axis : Axis) : spread (places.image (·.along axis)) = 0 := by
    apply spread_eq_zero
    rw [Finset.coe_image]
    exact single.image _
  rw [halfPerimeter, along, along, add_zero]

end HalfPerimeter

section Translation

variable {offset : Point α}

theorem spread_translate (values : Finset α) (shift : α) :
    spread (values.image (· + shift)) = spread values := by
  by_cases some : values.Nonempty
  · have monotone : Monotone fun value => value + shift :=
      fun _ _ ordered => add_le_add_left ordered shift
    have least := monotone.map_isLeast (values.isLeast_min' some)
    have greatest := monotone.map_isGreatest (values.isGreatest_max' some)
    rw [← Finset.coe_image] at least greatest
    rw [spread_eq least greatest, add_sub_add_right_eq_sub, spread, dif_pos some]
  · rw [Finset.not_nonempty_iff_eq_empty.mp some, Finset.image_empty]

theorem halfPerimeter_translate (places : Finset (Point α)) :
    halfPerimeter (places.image (Point.translate offset)) = halfPerimeter places := by
  have along (axis : Axis) :
      (places.image (Point.translate offset)).image (·.along axis) =
        (places.image (·.along axis)).image (· + offset.along axis) := by
    rw [Finset.image_image, Finset.image_image]
    cases axis <;> rfl
  rw [halfPerimeter, along, along, spread_translate, spread_translate, halfPerimeter]

@[simp] theorem center_translate (block : Block α) :
    (block.translate offset).center = .translate offset block.center := by
  simp [Block.translate, Block.moveTo, Block.center, Point.translate, add_right_comm]

end Translation

variable {problem : Problem α} {blocks : List (Block α)} {net other : Net} {offset : Point α}

theorem mem_pinPlaces {place : Point α} :
    place ∈ pinPlaces problem blocks net ↔ place ∈ pins problem blocks net := by
  simp [pinPlaces, pins]

theorem pins_translate :
    pins { problem with terminals := problem.terminals.map (Terminal.translate offset) }
        (blocks.map (Block.translate offset)) net =
      (pins problem blocks net).map (Point.translate offset) := by
  simp [pins, List.map_filterMap, Function.comp_def, Point.translate]

theorem pinPlaces_translate :
    pinPlaces { problem with terminals := problem.terminals.map (Terminal.translate offset) }
        (blocks.map (Block.translate offset)) net =
      (pinPlaces problem blocks net).image (Point.translate offset) := by
  ext place
  rw [mem_pinPlaces, pins_translate, List.mem_map, Finset.mem_image]
  simp only [mem_pinPlaces]

theorem pinPlaces_mono (part : net.IsPartOf other) :
    pinPlaces problem blocks net ⊆ pinPlaces problem blocks other := by
  intro place pin
  rw [mem_pinPlaces, pins, List.mem_append] at pin ⊢
  exact pin.imp (fun block => List.filterMap_subset _ part.blocks block)
    fun terminal => List.filterMap_subset _ part.terminals terminal

theorem netLength_eq (problem : Problem α) (blocks : List (Block α)) (net : Net) :
    netLength problem blocks net = net.weight * halfPerimeter (pinPlaces problem blocks net) := by
  rw [netLength]
  cases bounds : boundingBox? (pins problem blocks net) with
  | none =>
      have empty : pinPlaces problem blocks net = ∅ := by
        apply Finset.eq_empty_of_forall_notMem
        intro place pin
        rw [mem_pinPlaces] at pin
        cases points : pins problem blocks net with
        | nil => simp [points] at pin
        | cons first rest => simp [points, boundingBox?] at bounds
      have single : ((∅ : Finset (Point α)) : Set (Point α)).Subsingleton := by simp
      rw [empty, halfPerimeter_eq_zero single, mul_zero]
      rfl
  | some box =>
      have along := spread_of_boundingBox? (fun _ => mem_pinPlaces) bounds
      rw [halfPerimeter, along, along, mul_comm]
      rfl

theorem netLength_mono (part : net.IsPartOf other) :
    netLength problem blocks net ≤ netLength problem blocks other := by
  rw [netLength_eq, netLength_eq, part.weight]
  exact mul_le_mul_of_nonneg_left (halfPerimeter_mono (pinPlaces_mono part)) (Nat.cast_nonneg _)

theorem netLength_eq_zero (single : (pinPlaces problem blocks net : Set (Point α)).Subsingleton) :
    netLength problem blocks net = 0 := by
  rw [netLength_eq, halfPerimeter_eq_zero single, mul_zero]

theorem netLength_translate (net : Net) :
    netLength { problem with terminals := problem.terminals.map (Terminal.translate offset) }
      (blocks.map (Block.translate offset)) net = netLength problem blocks net := by
  rw [netLength_eq, netLength_eq, pinPlaces_translate, halfPerimeter_translate]

theorem netLength_eq_of_nets (nets : List Net) :
    netLength { problem with nets } blocks = netLength problem blocks := rfl

/--
The wirelength adds up half the perimeter of the box around the pins of each net that has some, by
weight. It is never negative, a net whose pins are all in one place does not count, it stays the same
where blocks and terminals are moved by one offset, and no net gets shorter by more pins.
-/
theorem wirelength_half_perimeter (problem : Problem α) (blocks : List (Block α)) :
    wirelength problem blocks =
        ((problem.nets.filter fun net => (pinPlaces problem blocks net).Nonempty).map fun net =>
          (net.weight : α) * halfPerimeter (pinPlaces problem blocks net)).sum ∧
      0 ≤ wirelength problem blocks ∧
      (∀ net ∈ problem.nets, (pinPlaces problem blocks net : Set (Point α)).Subsingleton →
        wirelength { problem with nets := problem.nets.erase net } blocks =
          wirelength problem blocks) ∧
      ((∀ net ∈ problem.nets, (pinPlaces problem blocks net : Set (Point α)).Subsingleton) →
        wirelength problem blocks = 0) ∧
      (∀ offset : Point α,
        wirelength { problem with terminals := problem.terminals.map (Terminal.translate offset) }
          (blocks.map (Block.translate offset)) = wirelength problem blocks) ∧
      ∀ nets, List.Forall₂ Net.IsPartOf problem.nets nets →
        wirelength problem blocks ≤ wirelength { problem with nets } blocks := by
  refine ⟨?extremes, wirelength_nonneg problem blocks, ?oneApart, ?allApart, ?translated, ?extended⟩
  case extremes =>
    rw [wirelength_eq_sum, ← sum_map_filter (fun net => (pinPlaces problem blocks net).Nonempty)]
    · exact congrArg List.sum (List.map_congr_left fun net _ => netLength_eq problem blocks net)
    intro net _ none
    apply netLength_eq_zero
    rw [Finset.not_nonempty_iff_eq_empty.mp (of_decide_eq_false none), Finset.coe_empty]
    exact Set.subsingleton_empty
  case oneApart =>
    intro net member single
    rw [wirelength_eq_sum, wirelength_eq_sum, netLength_eq_of_nets,
      ← List.sum_map_erase _ member, netLength_eq_zero single, zero_add]
  case allApart =>
    intro single
    rw [wirelength_eq_sum]
    apply List.sum_eq_zero
    exact List.forall_mem_map.mpr fun net member => netLength_eq_zero (single net member)
  case translated =>
    intro offset
    rw [wirelength_eq_sum, wirelength_eq_sum]
    exact congrArg List.sum (List.map_congr_left fun net _ => netLength_translate net)
  case extended =>
    intro nets parts
    rw [wirelength_eq_sum, wirelength_eq_sum, netLength_eq_of_nets]
    apply List.Forall₂.sum_le_sum
    rw [List.forall₂_map_left_iff, List.forall₂_map_right_iff]
    exact parts.imp fun _ _ part => netLength_mono part

/-- A net that names one block twice has no length until a terminal elsewhere is added to it. -/
theorem wirelength_half_perimeter_pair :
    let short : Net := ⟨[⟨0⟩, ⟨0⟩], [], 3⟩
    let long : Net := ⟨[⟨0⟩, ⟨0⟩], [⟨0⟩], 3⟩
    let problem : Problem ℝ := ⟨⟨8, 8⟩, [], [short], [⟨"pad", 4, 3⟩], [], []⟩
    let blocks : List (Block ℝ) := [.hard "tile" 4 1 [⟨2, 2⟩]]
    wirelength problem blocks = 0 ∧
      wirelength problem blocks ≤ wirelength { problem with nets := [long] } blocks ∧
      wirelength { problem with nets := [long] } blocks = 15 := by
  intro short long problem blocks
  let center : Point ℝ := ⟨0 + 2 / (2 : Nat), 0 + 2 / (2 : Nat)⟩
  have single (net : Net) (member : net ∈ problem.nets) :
      (pinPlaces problem blocks net : Set (Point ℝ)).Subsingleton := by
    rw [List.mem_singleton.mp member]
    have pins : pins problem blocks short = [center, center] := rfl
    intro place pin other otherPin
    rw [Finset.mem_coe, mem_pinPlaces, pins] at pin otherPin
    simp only [List.mem_cons, List.not_mem_nil, or_false, or_self] at pin otherPin
    rw [pin, otherPin]
  have part : short.IsPartOf long := ⟨by simp [short, long], by simp [short, long], rfl⟩
  obtain ⟨-, -, -, allApart, -, extended⟩ := wirelength_half_perimeter problem blocks
  refine ⟨allApart single, extended [long] (.cons part .nil), ?_⟩
  have pins : pins { problem with nets := [long] } blocks long = [center, center, ⟨4, 3⟩] := rfl
  rw [wirelength_eq_sum, List.map_singleton, List.sum_singleton, netLength, pins, boundingBox?_cons]
  norm_num [center, long]

end Cost

end Floorplanner
