import Mathlib
import Floorplanner.Proofs.Design.Names
import Floorplanner.Proofs.Pointwise
import Floorplanner.Proofs.TotalOrder

/-!
The problem of a design is well formed.

Its blocks and terminals stand in the order of the design, the terminals behind the standard ones,
and each is found under its name. Nets and locations refer to what the design names in them, where a
name that a source and a sink may have is that of a terminal first. Every block has a shape to take,
and its ranges are in order.
-/

namespace Floorplanner

variable {α : Type}

namespace Block

variable [Number α]

def HasChoices (block : Block α) : Prop :=
  match block.form with
  | .soft ratios _ _ =>
      0 < block.area ∧ ratios ≠ [] ∧
        ratios.Pairwise (fun first second => Number.sortsBefore first.low second.low = true) ∧
        ∀ range ∈ ratios, 0 < range.low ∧ range.low ≤ range.high
  | .hard _ options _ => options ≠ [] ∧ ∀ size ∈ options, 0 < size.width ∧ 0 < size.height

section Sorting

variable {r s t : Interval α}

theorem sortsBefore_low_of_rangeSortsBefore (sorts : rangeSortsBefore r s = true) :
    Number.sortsBefore r.low s.low = true := by
  rw [rangeSortsBefore] at sorts
  split at sorts
  next tied => exact (Bool.and_eq_true_iff.mp tied).1
  next => exact sorts

variable [Number.SortsTotally α]

theorem rangeSortsBefore_total (r s : Interval α) :
    (rangeSortsBefore r s || rangeSortsBefore s r) = true := by
  rw [rangeSortsBefore, rangeSortsBefore, Bool.and_comm (Number.sortsBefore s.low r.low)]
  split
  · exact Bool.or_eq_true_iff.mpr (Number.SortsTotally.total r.high s.high)
  · exact Bool.or_eq_true_iff.mpr (Number.SortsTotally.total r.low s.low)

theorem rangeSortsBefore_trans (first : rangeSortsBefore r s = true)
    (second : rangeSortsBefore s t = true) : rangeSortsBefore r t = true := by
  have firstLow := sortsBefore_low_of_rangeSortsBefore first
  have secondLow := sortsBefore_low_of_rangeSortsBefore second
  have low := Number.SortsTotally.trans firstLow secondLow
  rw [rangeSortsBefore]
  split
  next tied =>
    have back := (Bool.and_eq_true_iff.mp tied).2
    have firstBack := Number.SortsTotally.trans secondLow back
    have secondBack := Number.SortsTotally.trans back firstLow
    rw [rangeSortsBefore, if_pos (Bool.and_eq_true_iff.mpr ⟨firstLow, firstBack⟩)] at first
    rw [rangeSortsBefore, if_pos (Bool.and_eq_true_iff.mpr ⟨secondLow, secondBack⟩)] at second
    exact Number.SortsTotally.trans first second
  next => exact low

end Sorting

end Block

namespace Design

structure Wiring where
  blocks : List String
  terminals : List String
  weight : Nat

def Wiring.ofPins (terminals names : List String) (weight : Nat) : Wiring where
  blocks := names.filter (· ∉ terminals)
  terminals := names.filter (· ∈ terminals)
  weight

theorem Wiring.ofPins_concat_of_mem {terminals names : List String} {name : String} {weight : Nat}
    (member : name ∈ terminals) :
    ofPins terminals (names ++ [name]) weight =
      ⟨names.filter (· ∉ terminals), names.filter (· ∈ terminals) ++ [name], weight⟩ := by
  simp [ofPins, member]

theorem Wiring.ofPins_concat_of_not_mem {terminals names : List String} {name : String}
    {weight : Nat} (fresh : name ∉ terminals) :
    ofPins terminals (names ++ [name]) weight =
      ⟨names.filter (· ∉ terminals) ++ [name], names.filter (· ∈ terminals), weight⟩ := by
  simp [ofPins, fresh]

/-- What a description joins, given the names that are those of terminals. -/
def NetDescription.wirings (terminals : List String) : NetDescription → List Wiring
  | .fanout source sinks =>
      sinks.map fun sink => .ofPins terminals [source, sink.name] sink.weight
  | .explicit blocks names weight => [⟨blocks, names, weight⟩]

namespace BlockDescription

variable [Number α]

def designArea (description : BlockDescription α) : α :=
  description.area.getD (description.shapes.headD .zero).area

def block (description : BlockDescription α) : Block α :=
  if 0 < description.macros then
    .hard description.name description.designArea description.macros description.shapes
  else .soft description.name description.designArea description.ratios

variable {description : BlockDescription α} {made : Block α}

theorem eq_block_of_resolve (resolved : description.resolve = .ok made) :
    made = description.block := by
  rw [block]
  rcases resolve_cases resolved with ⟨positive, _, first, head, rfl⟩ | ⟨zero, _, area, given, rfl⟩
  · have size : description.shapes.headD .zero = first := by
      rw [List.headD_eq_head?_getD, Option.mem_def.mp head, Option.getD_some]
    rw [if_pos positive, designArea, size]
  · rw [if_neg zero, designArea, Option.mem_def.mp given, Option.getD_some]

theorem hasChoices_of_resolve [Number.SortsTotally α]
    (resolved : description.resolve = .ok made) : made.HasChoices := by
  rcases resolve_cases resolved with
    ⟨_, describes, first, head, rfl⟩ | ⟨_, describes, area, given, rfl⟩
  · constructor
    · exact List.ne_nil_of_mem (List.mem_of_mem_head? head)
    · intro size member
      exact ⟨(describes.sizes size member).1.1, (describes.sizes size member).2.1⟩
  · obtain ⟨_, same, isLength⟩ := describes.area
    cases Option.mem_unique same given
    have sorted : (description.ratios.mergeSort Block.rangeSortsBefore).Pairwise
        fun first second => Block.rangeSortsBefore first second = true := by
      apply List.pairwise_mergeSort
      · exact fun _ _ _ => Block.rangeSortsBefore_trans
      · exact Block.rangeSortsBefore_total
    refine ⟨isLength.1, ?_, ?_, ?_⟩
    · rw [← List.length_pos_iff, List.length_mergeSort, List.length_pos_iff]
      exact describes.nonempty
    · exact sorted.imp Block.sortsBefore_low_of_rangeSortsBefore
    · intro range member
      obtain ⟨positive, ordered, _⟩ := describes.ranges range (List.mem_mergeSort.mp member)
      exact ⟨positive, ordered⟩

end BlockDescription

end Design

namespace Problem

open Design

/-- A search that gets from each of some names to its position, and from no other name anywhere. -/
structure Finds {kind : Entity} (find : String → Option (Entity.Ref kind)) (names : List String) :
    Prop where
  distinct : names.Nodup
  found : ∀ index name, names[index]? = some name → (find name).map (·.index) = some index
  missing : ∀ name ∉ names, find name = none

structure Connects (problem : Problem α) (wiring : Wiring) (net : Net) : Prop where
  blocks : List.Forall₂ (fun name ref => problem.findBlock? name = some ref)
    wiring.blocks net.blocks
  terminals : List.Forall₂ (fun name ref => problem.findTerminal? name = some ref)
    wiring.terminals net.terminals
  weight : net.weight = wiring.weight

structure Realizes (problem : Problem α) (wiring : Wiring) (net : Net) : Prop where
  blocks : List.Forall₂ problem.IsBlock wiring.blocks net.blocks
  terminals : List.Forall₂ problem.IsTerminal wiring.terminals net.terminals
  weight : net.weight = wiring.weight

structure Locates (problem : Problem α) (guide : Guide α) (location : Location α) : Prop where
  block : problem.IsBlock guide.block location.block
  rect : location.rect = guide.rect

variable {problem : Problem α} {name : String} {index : Nat}

section Pins

variable {source : String} {net next : Net}

theorem connects_unpinned_iff {weight : Nat} :
    problem.Connects (.ofPins problem.terminalNames [] weight) net ↔ net = ⟨[], [], weight⟩ := by
  obtain ⟨blocks, terminals, _⟩ := net
  constructor
  · rintro ⟨none, neither, rfl⟩
    cases none
    cases neither
    rfl
  · rintro ⟨⟩
    exact ⟨.nil, .nil, rfl⟩

/-- A net with one more pin is one that the pin was attached to. -/
theorem connects_concat_iff (index : Nat) {names : List String} {weight : Nat} :
    problem.Connects (.ofPins problem.terminalNames (names ++ [name]) weight) next ↔
      ∃ net, problem.Connects (.ofPins problem.terminalNames names weight) net ∧
        problem.attach index net name = .ok next := by
  obtain ⟨blocks, terminals, carried⟩ := next
  simp only [attach_eq_ok_iff]
  by_cases member : name ∈ problem.terminalNames
  · rw [Wiring.ofPins_concat_of_mem member]
    constructor
    · rintro ⟨blocksFound, found, weighs⟩
      obtain ⟨first, _, rest, _ | ⟨here, ⟨⟩⟩, rfl⟩ := forall₂_append_left_iff.mp found
      exact ⟨⟨blocks, first, carried⟩, ⟨blocksFound, rest, weighs⟩, .inl ⟨_, here, rfl⟩⟩
    · rintro ⟨net, connects, ⟨ref, found, ⟨⟩⟩ | ⟨fresh, _⟩⟩
      · exact ⟨connects.blocks, List.rel_append connects.terminals (.cons found .nil),
          connects.weight⟩
      · exact absurd member fresh
  · rw [Wiring.ofPins_concat_of_not_mem member]
    constructor
    · rintro ⟨found, terminalsFound, weighs⟩
      obtain ⟨first, _, rest, _ | ⟨here, ⟨⟩⟩, rfl⟩ := forall₂_append_left_iff.mp found
      exact ⟨⟨first, terminals, carried⟩, ⟨rest, terminalsFound, weighs⟩,
        .inr ⟨member, _, here, rfl⟩⟩
    · rintro ⟨net, connects, ⟨ref, found, _⟩ | ⟨_, ref, found, ⟨⟩⟩⟩
      · rw [findTerminal?_eq_none.mpr member] at found
        cases found
      · exact ⟨List.rel_append connects.blocks (.cons found .nil), connects.terminals,
          connects.weight⟩

theorem resolveSink_eq_ok_iff {sink : Sink} :
    problem.resolveSink index source sink = .ok net ↔
      problem.Connects (.ofPins problem.terminalNames [source, sink.name] sink.weight) net := by
  change _ ↔ problem.Connects
    (.ofPins problem.terminalNames (([] ++ [source]) ++ [sink.name]) sink.weight) net
  simp only [connects_concat_iff index, connects_unpinned_iff, exists_eq_left, resolveSink,
    bind_eq_ok_iff]

theorem resolveNet_eq_ok_iff {description : NetDescription} {nets : List Net} :
    problem.resolveNet index description = .ok nets ↔
      List.Forall₂ problem.Connects (description.wirings problem.terminalNames) nets := by
  cases description with
  | fanout source sinks =>
      simp only [resolveNet, mapM_eq_ok_iff, resolveSink_eq_ok_iff, NetDescription.wirings,
        List.forall₂_map_left_iff]
  | explicit blocks terminals weight =>
      simp only [resolveNet, bind_eq_ok_iff, mapM_eq_ok_iff, netBlock_eq_ok_iff,
        netTerminal_eq_ok_iff, NetDescription.wirings, List.forall₂_cons_left_iff,
        List.forall₂_nil_left_iff]
      constructor
      · rintro ⟨blocks, blocksFound, terminals, terminalsFound, equality⟩
        cases equality
        exact ⟨_, [], ⟨blocksFound, terminalsFound, rfl⟩, rfl, rfl⟩
      · rintro ⟨net, _, connects, rfl, rfl⟩
        obtain ⟨_, _, _⟩ := net
        cases connects.weight
        exact ⟨_, connects.blocks, _, connects.terminals, rfl⟩

end Pins

section Names

variable (addressable : problem.IsAddressable)
include addressable

theorem finds_findBlock? (distinct : problem.blockNames.Nodup) :
    Finds problem.findBlock? problem.blockNames where
  distinct := distinct
  found _ _ := (index_findBlock?_eq_some_iff addressable distinct).mpr
  missing _ := findBlock?_eq_none.mpr

theorem finds_findTerminal? (distinct : problem.terminalNames.Nodup) :
    Finds problem.findTerminal? problem.terminalNames where
  distinct := distinct
  found _ _ := (index_findTerminal?_eq_some_iff addressable distinct).mpr
  missing _ := findTerminal?_eq_none.mpr

variable (distinctBlocks : problem.blockNames.Nodup)

section Blocks

include distinctBlocks

theorem locates_of_resolveGuide [Number α] {guide : Guide α} {location : Location α}
    (resolved : problem.resolveGuide guide = .ok location) : problem.Locates guide location := by
  obtain ⟨ref, found, rfl⟩ := resolveGuide_eq_ok_iff.mp resolved
  exact ⟨isBlock_of_findBlock? addressable distinctBlocks found, rfl⟩

end Blocks

variable (distinctTerminals : problem.terminalNames.Nodup)
include distinctBlocks distinctTerminals

theorem Connects.realizes {wiring : Wiring} {net : Net} (connects : problem.Connects wiring net) :
    problem.Realizes wiring net where
  blocks := connects.blocks.imp fun _ _ => isBlock_of_findBlock? addressable distinctBlocks
  terminals := connects.terminals.imp fun _ _ =>
    isTerminal_of_findTerminal? addressable distinctTerminals
  weight := connects.weight

theorem realizes_of_resolveNet {description : NetDescription} {nets : List Net}
    (resolved : problem.resolveNet index description = .ok nets) :
    List.Forall₂ problem.Realizes (description.wirings problem.terminalNames) nets :=
  (resolveNet_eq_ok_iff.mp resolved).imp fun _ _ connects =>
    connects.realizes addressable distinctBlocks distinctTerminals

end Names

end Problem

namespace Design

variable [Number α] {design : Design α} {problem : Problem α}

/-- A problem of what a design describes, in its order and under its names. -/
structure Describes (design : Design α) (problem : Problem α) : Prop where
  outline : problem.outline = design.outline
  blocks : problem.blocks = design.blocks.map (·.block)
  findsBlocks : Problem.Finds problem.findBlock? design.blockNames
  terminals : problem.terminals = Terminal.standard design.outline ++ design.terminals
  findsTerminals : Problem.Finds problem.findTerminal? design.terminalNames
  nets : List.Forall₂ problem.Realizes
    (design.nets.flatMap (·.wirings design.terminalNames)) problem.nets
  regions : problem.regions = design.regions
  locations : List.Forall₂ problem.Locates design.guides problem.locations
  closed : problem.IsClosed
  choices : ∀ block ∈ problem.blocks, block.HasChoices

theorem blocks_of_resolve (resolved : design.resolve = .ok problem) :
    problem.blocks = design.blocks.map (·.block) := by
  obtain ⟨_, _, _, _, blocks, _, _, made, _, _, rfl⟩ := resolve_eq_ok_iff.mp resolved
  change blocks = _
  rw [← List.forall₂_eq_eq_eq, List.forall₂_map_right_iff]
  exact made.flip.imp fun _ _ => BlockDescription.eq_block_of_resolve

omit [Number α] in
theorem nodup_terminalNames (distinct : (design.terminals.map (·.name)).Nodup)
    (fresh : Terminal.standardNames.Disjoint (design.terminals.map (·.name))) :
    design.terminalNames.Nodup :=
  List.nodup_append'.mpr ⟨by decide, distinct, fresh⟩

/-- A design that is resolved describes the problem, if 32 bits are enough to refer to it. -/
theorem describes_of_resolve [Number.SortsTotally α] (resolved : design.resolve = .ok problem)
    (addressable : problem.IsAddressable) : design.Describes problem := by
  have closed := isClosed_of_resolve resolved addressable
  have blocks := blocks_of_resolve resolved
  obtain ⟨_, _, distinctBlocks, ⟨distinct, fresh⟩, found, nets, locations, made, joined, guided,
    rfl⟩ := resolve_eq_ok_iff.mp resolved
  have distinctTerminals := nodup_terminalNames distinct fresh
  let named := design.named found
  have namedAddressable : named.IsAddressable := ⟨addressable.blocks, addressable.terminals⟩
  have blockNames : named.blockNames = design.blockNames := blockNames_named made
  have terminalNames : named.terminalNames = design.terminalNames := terminalNames_named found
  rw [← blockNames] at distinctBlocks
  rw [← terminalNames] at distinctTerminals
  constructor
  · rfl
  · exact blocks
  · rw [← blockNames]
    exact Problem.finds_findBlock? addressable distinctBlocks
  · rfl
  · rw [← terminalNames]
    exact Problem.finds_findTerminal? addressable distinctTerminals
  · rw [← terminalNames, List.flatMap_def]
    apply List.rel_flatten
    rw [List.forall₂_map_left_iff, ← List.zipIdx_map_fst 0 design.nets, List.forall₂_map_left_iff]
    apply (mapM_eq_ok_iff.mp joined).imp
    intro entry nets resolved
    have realizes := Problem.realizes_of_resolveNet namedAddressable distinctBlocks
      distinctTerminals resolved
    exact realizes.imp fun _ _ made => ⟨made.blocks, made.terminals, made.weight⟩
  · rfl
  · apply (mapM_eq_ok_iff.mp guided).imp
    intro guide location resolved
    have locates := Problem.locates_of_resolveGuide namedAddressable distinctBlocks resolved
    exact ⟨locates.block, locates.rect⟩
  · exact closed
  · exact forall_mem_of_mapM (fun _ _ => BlockDescription.hasChoices_of_resolve)
      (mapM_eq_ok_iff.mpr made)

theorem describes_of_resolve_two :
    let design : Design ℝ :=
      ⟨⟨6, 5⟩,
        [⟨"logic", some 4, 0, [⟨1, 4⟩, ⟨1 / 2, 2⟩], []⟩, ⟨"rom", none, 1, [], [⟨2, 3⟩, ⟨3, 2⟩]⟩],
        [⟨"clk", 3, 0⟩], [.fanout "clk" [⟨"logic", 1⟩, ⟨"rom", 2⟩], .explicit ["rom"] ["LL"] 3],
        [⟨0, 0, 1, 1⟩], [⟨"rom", ⟨2, 2, 4, 5⟩⟩]⟩
    ∃ problem, design.resolve = .ok problem ∧ problem.IsAddressable ∧ design.Describes problem := by
  intro design
  let blocks : List (Block ℝ) :=
    [.soft "logic" 4 [⟨1, 4⟩, ⟨1 / 2, 2⟩], .hard "rom" 6 1 [⟨2, 3⟩, ⟨3, 2⟩]]
  let problem : Problem ℝ :=
    { design.named blocks with
      nets := [⟨[⟨0⟩], [⟨12⟩], 1⟩, ⟨[⟨1⟩], [⟨12⟩], 2⟩, ⟨[⟨1⟩], [⟨0⟩], 3⟩]
      regions := design.regions
      locations := [⟨⟨1⟩, ⟨2, 2, 4, 5⟩⟩] }
  have resolved : design.resolve = .ok problem := by
    refine resolve_eq_ok_iff.mpr ⟨?_, ?_, ?_, ⟨?_, ?_⟩, blocks, _, _, ?_, rfl, rfl, rfl⟩
    · norm_num [design, Size.isPositive, Number.isLength, Number.isFinite]
    · exact List.cons_ne_nil _ _
    · decide
    · decide
    · simp [design, Terminal.standardNames]
    · refine .cons ?_ (.cons ?_ .nil)
      · norm_num [BlockDescription.resolve, BlockDescription.resolveSoft, bind, Except.bind, pure,
          Except.pure, BlockDescription.checkArea, BlockDescription.checkRatios, isRatioRange,
          Number.isLength, Number.isFinite]
      · norm_num [BlockDescription.resolve, BlockDescription.resolveHard, bind, Except.bind, pure,
          Except.pure, BlockDescription.checkArea, Size.isPositive, Size.area,
          Number.isLength, Number.isFinite]
  have addressable : problem.IsAddressable := by
    constructor
    · change 2 ≤ 2 ^ 32
      decide
    · change 13 ≤ 2 ^ 32
      decide
  exact ⟨problem, resolved, addressable, describes_of_resolve resolved addressable⟩

end Design

end Floorplanner
