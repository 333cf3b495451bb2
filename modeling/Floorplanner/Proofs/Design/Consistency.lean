import Mathlib
import Floorplanner.Design.Resolution
import Floorplanner.Proofs.ExactNumber
import Floorplanner.Proofs.Fallible

/-!
Which designs describe a problem.

A design is resolved exactly if its lengths are lengths, its names are distinct and those that it
refers to are there. Only the source of a net without sinks is never looked at: such a description
stands for no nets at all.
-/

namespace Floorplanner

variable {α : Type}

namespace Terminal

def standardNames : List String :=
  ["LL", "LM", "LU", "RL", "RM", "RU", "BL", "BM", "BU", "TL", "TM", "TU"]

@[simp] theorem map_name_standard [Number α] (outline : Size α) :
    (standard outline).map (·.name) = standardNames := rfl

end Terminal

section Consistent

variable [Number α]

def Number.IsLength (value : α) : Prop := 0 < value ∧ Number.isFinite value = true

namespace Design

namespace BlockDescription

/-- Sizes to choose from, and an area, which is that of the first of them unless it is given. -/
structure DescribesHard (description : BlockDescription α) : Prop where
  sizes : ∀ size ∈ description.shapes, Number.IsLength size.width ∧ Number.IsLength size.height
  area : ∃ first ∈ description.shapes.head?, Number.IsLength (description.area.getD first.area)

structure DescribesSoft (description : BlockDescription α) : Prop where
  area : ∃ area ∈ description.area, Number.IsLength area
  nonempty : description.ratios ≠ []
  ranges : ∀ range ∈ description.ratios,
    0 < range.low ∧ range.low ≤ range.high ∧ Number.isFinite range.high = true

def IsComplete (description : BlockDescription α) : Prop :=
  if 0 < description.macros then description.DescribesHard else description.DescribesSoft

end BlockDescription

namespace NetDescription

def IsNamedBy (blocks terminals : List String) : NetDescription → Prop
  | .fanout source sinks =>
      ∀ name ∈ source :: sinks.map (·.name), name ∈ terminals ∨ name ∈ blocks
  | .explicit first second _ => (∀ name ∈ first, name ∈ blocks) ∧ ∀ name ∈ second, name ∈ terminals

/-- Whether a description stands for a net; without sinks, a source is joined to nothing. -/
def joins : NetDescription → Bool
  | .fanout _ sinks => !sinks.isEmpty
  | .explicit .. => true

end NetDescription

def blockNames (design : Design α) : List String := design.blocks.map (·.name)

def terminalNames (design : Design α) : List String :=
  Terminal.standardNames ++ design.terminals.map (·.name)

structure IsConsistent (design : Design α) : Prop where
  outline : Number.IsLength design.outline.width ∧ Number.IsLength design.outline.height
  nonempty : design.blocks ≠ []
  distinctBlocks : design.blockNames.Nodup
  complete : ∀ description ∈ design.blocks, description.IsComplete
  distinctTerminals : (design.terminals.map (·.name)).Nodup
  notStandard : ∀ terminal ∈ design.terminals, terminal.name ∉ Terminal.standardNames
  nets : ∀ net ∈ design.nets, net.IsNamedBy design.blockNames design.terminalNames
  guides : ∀ guide ∈ design.guides, guide.block ∈ design.blockNames

def joined (design : Design α) : Design α :=
  { design with nets := design.nets.filter NetDescription.joins }

namespace BlockDescription

variable {description : BlockDescription α} {block : Block α}

theorem isLength_iff_isLength {value : α} :
    Number.isLength value = true ↔ Number.IsLength value := by
  simp [Number.isLength, Number.IsLength]

theorem checkArea_eq_ok_iff {name : String} {area : α} :
    checkArea name area = .ok () ↔ Number.IsLength area := by
  rw [← isLength_iff_isLength, checkArea]
  cases Number.isLength area <;> simp

theorem checkRatios_eq_ok_iff {name : String} {ratios : List (Interval α)} :
    checkRatios name ratios = .ok () ↔
      ratios ≠ [] ∧ ∀ range ∈ ratios,
        0 < range.low ∧ range.low ≤ range.high ∧ Number.isFinite range.high = true := by
  have passes (range : Interval α) : isRatioRange range = true ↔
      0 < range.low ∧ range.low ≤ range.high ∧ Number.isFinite range.high = true := by
    simp [isRatioRange, and_assoc]
  simp only [← passes, checkRatios]
  cases ratios with
  | nil => simp
  | cons first rest =>
      cases refused : (first :: rest).find? (!isRatioRange ·) with
      | none =>
          have all := List.find?_eq_none.mp refused
          simpa using all
      | some range =>
          have member := List.mem_of_find?_eq_some refused
          have fails := List.find?_some refused
          simp only [Bool.not_eq_true'] at fails
          simp only [List.isEmpty_cons, Bool.false_eq_true, if_false, reduceCtorEq, false_iff]
          rintro ⟨_, all⟩
          exact absurd (all range member) (by simp [fails])

theorem resolveHard_eq_ok_iff :
    description.resolveHard = .ok block ↔
      description.DescribesHard ∧ ∃ first ∈ description.shapes.head?,
        block = .hard description.name (description.area.getD first.area) description.macros
          description.shapes := by
  obtain ⟨name, area, macros, ratios, shapes⟩ := description
  have sizes : shapes.all Size.isPositive = true ↔
      ∀ size ∈ shapes, Number.IsLength size.width ∧ Number.IsLength size.height := by
    simp [Size.isPositive, isLength_iff_isLength]
  unfold resolveHard
  cases shapes with
  | nil => exact iff_of_false nofun fun describes => nomatch describes.2.choose_spec.1
  | cons first rest =>
      dsimp only
      constructor
      · intro resolved
        split at resolved
        next positive =>
          obtain ⟨_, checked, equality⟩ := bind_eq_ok_iff.mp resolved
          cases equality
          exact ⟨⟨sizes.mp positive, first, rfl, checkArea_eq_ok_iff.mp checked⟩, first, rfl, rfl⟩
        next => cases resolved
      · rintro ⟨⟨positive, _, ⟨⟩, isLength⟩, _, ⟨⟩, rfl⟩
        rw [if_pos (sizes.mpr positive)]
        exact bind_eq_ok_iff.mpr ⟨(), checkArea_eq_ok_iff.mpr isLength, rfl⟩

theorem resolveSoft_eq_ok_iff :
    description.resolveSoft = .ok block ↔
      description.DescribesSoft ∧ ∃ area ∈ description.area,
        block = .soft description.name area description.ratios := by
  obtain ⟨name, area, macros, ratios, shapes⟩ := description
  unfold resolveSoft
  cases area with
  | none => exact iff_of_false nofun fun describes => nomatch describes.2.choose_spec.1
  | some area =>
      simp only [then_eq_ok_iff, checkArea_eq_ok_iff, checkRatios_eq_ok_iff]
      constructor
      · rintro ⟨isLength, ⟨nonempty, ranges⟩, ⟨⟩⟩
        exact ⟨⟨⟨area, rfl, isLength⟩, nonempty, ranges⟩, area, rfl, rfl⟩
      · rintro ⟨⟨⟨_, ⟨⟩, isLength⟩, nonempty, ranges⟩, _, ⟨⟩, rfl⟩
        exact ⟨isLength, ⟨nonempty, ranges⟩, rfl⟩

theorem resolve_cases (resolved : description.resolve = .ok block) :
    (0 < description.macros ∧ description.DescribesHard ∧ ∃ first ∈ description.shapes.head?,
        block = .hard description.name (description.area.getD first.area) description.macros
          description.shapes) ∨
      (¬ 0 < description.macros ∧ description.DescribesSoft ∧ ∃ area ∈ description.area,
        block = .soft description.name area description.ratios) := by
  rw [resolve] at resolved
  split at resolved
  next positive => exact .inl ⟨positive, resolveHard_eq_ok_iff.mp resolved⟩
  next zero => exact .inr ⟨zero, resolveSoft_eq_ok_iff.mp resolved⟩

/-- A block has the name of its description, and it is hard if that counts macros. -/
theorem kind_resolve (resolved : description.resolve = .ok block) :
    block.name = description.name ∧ block.isHard = decide (0 < description.macros) := by
  rcases resolve_cases resolved with ⟨positive, _, _, _, rfl⟩ | ⟨zero, _, _, _, rfl⟩
  · exact ⟨rfl, (decide_eq_true positive).symm⟩
  · exact ⟨rfl, (decide_eq_false zero).symm⟩

theorem exists_resolve_iff :
    (∃ block, description.resolve = .ok block) ↔ description.IsComplete := by
  rw [resolve, IsComplete]
  split
  · simp only [resolveHard_eq_ok_iff]
    constructor
    · rintro ⟨_, describes, _⟩
      exact describes
    · intro describes
      obtain ⟨first, member, _⟩ := describes.area
      exact ⟨_, describes, first, member, rfl⟩
  · simp only [resolveSoft_eq_ok_iff]
    constructor
    · rintro ⟨_, describes, _⟩
      exact describes
    · intro describes
      obtain ⟨area, member, _⟩ := describes.area
      exact ⟨_, describes, area, member, rfl⟩

end BlockDescription

end Design

end Consistent

namespace Problem

section Names

variable {problem : Problem α} {name : String} {index : Nat} {net : Net}

def blockNames (problem : Problem α) : List String := problem.blocks.map (·.name)

def terminalNames (problem : Problem α) : List String := problem.terminals.map (·.name)

theorem isSome_lastIndex? {β : Type} {p : β → Bool} {entries : List β} :
    (lastIndex? p entries).isSome = true ↔ ∃ entry ∈ entries, p entry = true := by
  induction entries with
  | nil => simp [lastIndex?]
  | cons entry entries induction =>
      rw [lastIndex?, List.exists_mem_cons_iff, ← induction]
      cases lastIndex? p entries <;> cases p entry <;> simp

theorem isSome_findBlock? : (problem.findBlock? name).isSome = true ↔ name ∈ problem.blockNames := by
  rw [findBlock?, Option.isSome_map, isSome_lastIndex?]
  simp [blockNames]

theorem isSome_findTerminal? :
    (problem.findTerminal? name).isSome = true ↔ name ∈ problem.terminalNames := by
  rw [findTerminal?, Option.isSome_map, isSome_lastIndex?]
  simp [terminalNames]

theorem findBlock?_eq_none : problem.findBlock? name = none ↔ name ∉ problem.blockNames := by
  rw [← isSome_findBlock?, Option.not_isSome_iff_eq_none]

theorem findTerminal?_eq_none :
    problem.findTerminal? name = none ↔ name ∉ problem.terminalNames := by
  rw [← isSome_findTerminal?, Option.not_isSome_iff_eq_none]

theorem netBlock_eq_ok_iff {ref : BlockRef} :
    problem.netBlock index name = .ok ref ↔ problem.findBlock? name = some ref := by
  rw [netBlock]
  cases problem.findBlock? name <;> simp

theorem netTerminal_eq_ok_iff {ref : TerminalRef} :
    problem.netTerminal index name = .ok ref ↔ problem.findTerminal? name = some ref := by
  rw [netTerminal]
  cases problem.findTerminal? name <;> simp

theorem attach_eq_ok_iff {next : Net} :
    problem.attach index net name = .ok next ↔
      (∃ ref, problem.findTerminal? name = some ref ∧
        next = { net with terminals := net.terminals ++ [ref] }) ∨
      (name ∉ problem.terminalNames ∧ ∃ ref, problem.findBlock? name = some ref ∧
        next = { net with blocks := net.blocks ++ [ref] }) := by
  rw [← findTerminal?_eq_none, attach]
  cases problem.findTerminal? name with
  | some terminal => simp [eq_comm]
  | none =>
      simp only [bind_eq_ok_iff, netBlock_eq_ok_iff, reduceCtorEq, false_and, exists_false, false_or,
        true_and]
      exact exists_congr fun ref => and_congr_right fun _ =>
        ⟨fun equality => (Except.ok.inj equality).symm, fun equality => congrArg _ equality.symm⟩

theorem resolveGuide_eq_ok_iff {guide : Design.Guide α} {location : Location α} :
    problem.resolveGuide guide = .ok location ↔
      ∃ ref, problem.findBlock? guide.block = some ref ∧ location = ⟨ref, guide.rect⟩ := by
  rw [resolveGuide]
  cases problem.findBlock? guide.block <;> simp [eq_comm]

theorem exists_netBlock_iff :
    (∃ ref, problem.netBlock index name = .ok ref) ↔ name ∈ problem.blockNames := by
  simp only [netBlock_eq_ok_iff, ← Option.isSome_iff_exists, isSome_findBlock?]

theorem exists_netTerminal_iff :
    (∃ ref, problem.netTerminal index name = .ok ref) ↔ name ∈ problem.terminalNames := by
  simp only [netTerminal_eq_ok_iff, ← Option.isSome_iff_exists, isSome_findTerminal?]

theorem exists_attach_iff :
    (∃ next, problem.attach index net name = .ok next) ↔
      name ∈ problem.terminalNames ∨ name ∈ problem.blockNames := by
  rw [← isSome_findTerminal?, ← exists_netBlock_iff, attach]
  cases problem.findTerminal? name with
  | some terminal => simp
  | none =>
      simp only [bind_eq_ok_iff, Option.isSome_none, Bool.false_eq_true, false_or]
      constructor
      · rintro ⟨_, block, found, _⟩
        exact ⟨block, found⟩
      · rintro ⟨block, found⟩
        exact ⟨_, block, found, rfl⟩

theorem exists_resolveSink_iff {source : String} {sink : Design.Sink} :
    (∃ net, problem.resolveSink index source sink = .ok net) ↔
      (source ∈ problem.terminalNames ∨ source ∈ problem.blockNames) ∧
        (sink.name ∈ problem.terminalNames ∨ sink.name ∈ problem.blockNames) := by
  simp only [resolveSink, bind_eq_ok_iff]
  constructor
  · rintro ⟨net, first, attached, rest⟩
    exact ⟨exists_attach_iff.mp ⟨first, attached⟩, exists_attach_iff.mp ⟨net, rest⟩⟩
  · rintro ⟨source, sink⟩
    obtain ⟨first, attached⟩ := exists_attach_iff.mpr source
    obtain ⟨net, rest⟩ := exists_attach_iff.mpr sink
    exact ⟨net, first, attached, rest⟩

theorem exists_resolveNet_iff {description : Design.NetDescription} :
    (∃ nets, problem.resolveNet index description = .ok nets) ↔
      (description.joins = true →
        description.IsNamedBy problem.blockNames problem.terminalNames) := by
  cases description with
  | fanout source sinks =>
      rw [resolveNet, exists_mapM_eq_ok_iff]
      simp only [exists_resolveSink_iff, Design.NetDescription.IsNamedBy, List.forall_mem_cons,
        List.forall_mem_map, Design.NetDescription.joins]
      cases sinks with
      | nil => simp
      | cons sink sinks =>
          constructor
          · intro resolves _
            exact ⟨(resolves sink List.mem_cons_self).1, fun sink member => (resolves sink member).2⟩
          · intro named sink member
            exact ⟨(named rfl).1, (named rfl).2 sink member⟩
  | explicit blocks terminals weight =>
      simp only [Design.NetDescription.IsNamedBy, Design.NetDescription.joins, true_imp_iff,
        ← @exists_netBlock_iff _ problem _ index, ← @exists_netTerminal_iff _ problem _ index,
        ← exists_mapM_eq_ok_iff, resolveNet, bind_eq_ok_iff]
      constructor
      · rintro ⟨_, blocks, first, terminals, second, _⟩
        exact ⟨⟨blocks, first⟩, terminals, second⟩
      · rintro ⟨⟨blocks, first⟩, terminals, second⟩
        exact ⟨_, blocks, first, terminals, second, rfl⟩

theorem exists_resolveGuide_iff {guide : Design.Guide α} :
    (∃ location, problem.resolveGuide guide = .ok location) ↔ guide.block ∈ problem.blockNames := by
  rw [← isSome_findBlock?, resolveGuide]
  cases problem.findBlock? guide.block <;> simp

end Names

variable [Number α]

theorem withBlock_eq_ok_iff {problem next : Problem α}
    {description : Design.BlockDescription α} :
    problem.withBlock description = .ok next ↔
      description.name ∉ problem.blockNames ∧ ∃ block, description.resolve = .ok block ∧
        next = { problem with blocks := problem.blocks ++ [block] } := by
  rw [← findBlock?_eq_none, withBlock]
  cases problem.findBlock? description.name with
  | some block => simp
  | none =>
      simp only [bind_eq_ok_iff, true_and]
      exact exists_congr fun block => and_congr_right fun _ =>
        ⟨fun equality => (Except.ok.inj equality).symm, fun equality => congrArg _ equality.symm⟩

omit [Number α] in
theorem withTerminal_eq_ok_iff {problem next : Problem α} {terminal : Terminal α} :
    problem.withTerminal terminal = .ok next ↔
      terminal.name ∉ problem.terminalNames ∧
        next = { problem with terminals := problem.terminals ++ [terminal] } := by
  rw [← findTerminal?_eq_none, withTerminal, addTerminal]
  cases problem.findTerminal? terminal.name with
  | some found => simp [bind, Except.bind]
  | none =>
      simp only [true_and]
      exact ⟨fun equality => (Except.ok.inj equality).symm, fun equality => congrArg _ equality.symm⟩

theorem foldlM_withBlock_eq_ok_iff {problem next : Problem α}
    {descriptions : List (Design.BlockDescription α)} :
    descriptions.foldlM withBlock problem = .ok next ↔
      ((descriptions.map (·.name)).Nodup ∧
          problem.blockNames.Disjoint (descriptions.map (·.name))) ∧
        ∃ blocks, List.Forall₂ (fun description block => description.resolve = .ok block)
            descriptions blocks ∧ next = { problem with blocks := problem.blocks ++ blocks } := by
  have steps (items : List (Block α)) (description : Design.BlockDescription α)
      (next : Problem α) :
      withBlock { problem with blocks := items } description = .ok next ↔
        description.name ∉ items.map (·.name) ∧ ∃ block, description.resolve = .ok block ∧
          next = { problem with blocks := items ++ [block] } :=
    withBlock_eq_ok_iff
  change descriptions.foldlM withBlock { problem with blocks := problem.blocks } = _ ↔ _
  apply foldlM_put_eq_ok_iff _ steps
  exact fun description block resolved => (Design.BlockDescription.kind_resolve resolved).1

omit [Number α] in
theorem foldlM_withTerminal_eq_ok_iff {problem next : Problem α} {terminals : List (Terminal α)} :
    terminals.foldlM withTerminal problem = .ok next ↔
      ((terminals.map (·.name)).Nodup ∧
          problem.terminalNames.Disjoint (terminals.map (·.name))) ∧
        next = { problem with terminals := problem.terminals ++ terminals } := by
  have steps (items : List (Terminal α)) (entry : Terminal α) (next : Problem α) :
      withTerminal { problem with terminals := items } entry = .ok next ↔
        entry.name ∉ items.map (·.name) ∧ ∃ item, entry = item ∧
          next = { problem with terminals := items ++ [item] } := by
    rw [exists_eq_left']
    exact withTerminal_eq_ok_iff
  change terminals.foldlM withTerminal { problem with terminals := problem.terminals } = _ ↔ _
  rw [foldlM_put_eq_ok_iff (fun _ _ same => congrArg Terminal.name same.symm) steps,
    List.forall₂_eq_eq_eq, exists_eq_left']
  rfl

end Problem

namespace Design

variable [Number α] {design : Design α} {problem : Problem α}

def named (design : Design α) (blocks : List (Block α)) : Problem α :=
  { Problem.ofOutline design.outline with
    blocks
    terminals := Terminal.standard design.outline ++ design.terminals }

theorem resolve_eq_ok_iff :
    design.resolve = .ok problem ↔
      design.outline.isPositive = true ∧ design.blocks ≠ [] ∧ design.blockNames.Nodup ∧
        ((design.terminals.map (·.name)).Nodup ∧
          Terminal.standardNames.Disjoint (design.terminals.map (·.name))) ∧
        ∃ blocks nets locations,
          List.Forall₂ (fun description block => description.resolve = .ok block)
            design.blocks blocks ∧
          (design.nets.zipIdx.mapM fun (net, index) =>
            (design.named blocks).resolveNet index net) = .ok nets ∧
          design.guides.mapM (design.named blocks).resolveGuide = .ok locations ∧
          problem = { design.named blocks with
            nets := nets.flatten, regions := design.regions, locations } := by
  have outline : checkOutline design.outline = .ok () ↔ design.outline.isPositive = true := by
    rw [checkOutline]
    cases design.outline.isPositive <;> simp
  rw [resolve, then_eq_ok_iff, outline]
  refine and_congr_right fun _ => ?_
  cases empty : design.blocks.isEmpty with
  | true => simp [List.isEmpty_iff.mp empty]
  | false =>
      have nonempty : design.blocks ≠ [] := List.isEmpty_eq_false_iff.mp empty
      simp only [Bool.false_eq_true, if_false, bind_eq_ok_iff, Problem.foldlM_withBlock_eq_ok_iff,
        Problem.foldlM_withTerminal_eq_ok_iff]
      constructor
      · rintro ⟨_, ⟨⟨names, _⟩, blocks, made, rfl⟩, _, ⟨fresh, rfl⟩, nets, joined, locations, guided,
          equality⟩
        cases equality
        exact ⟨nonempty, names, fresh, blocks, nets, locations, made, joined, guided, rfl⟩
      · rintro ⟨_, names, fresh, blocks, nets, locations, made, joined, guided, rfl⟩
        exact ⟨_, ⟨⟨names, List.disjoint_nil_left _⟩, blocks, made, rfl⟩, _, ⟨fresh, rfl⟩, nets,
          joined, locations, guided, rfl⟩

theorem blockNames_named {blocks : List (Block α)}
    (made : List.Forall₂ (fun description block => description.resolve = .ok block)
      design.blocks blocks) : (design.named blocks).blockNames = design.blockNames := by
  symm
  change design.blocks.map (·.name) = blocks.map (·.name)
  rw [← List.forall₂_eq_eq_eq, List.forall₂_map_left_iff, List.forall₂_map_right_iff]
  exact made.imp fun _ _ resolved => (BlockDescription.kind_resolve resolved).1.symm

@[simp] theorem terminalNames_named (blocks : List (Block α)) :
    (design.named blocks).terminalNames = design.terminalNames := by
  rw [Problem.terminalNames, named, List.map_append, Terminal.map_name_standard]
  rfl

theorem isConsistent_joined_iff :
    design.joined.IsConsistent ↔
      (Number.IsLength design.outline.width ∧ Number.IsLength design.outline.height) ∧
        design.blocks ≠ [] ∧ design.blockNames.Nodup ∧
        (∀ description ∈ design.blocks, description.IsComplete) ∧
        ((design.terminals.map (·.name)).Nodup ∧
          Terminal.standardNames.Disjoint (design.terminals.map (·.name))) ∧
        (∀ net ∈ design.nets, net.joins = true →
          net.IsNamedBy design.blockNames design.terminalNames) ∧
        ∀ guide ∈ design.guides, guide.block ∈ design.blockNames := by
  have nets : (∀ net ∈ design.joined.nets, net.IsNamedBy design.blockNames design.terminalNames) ↔
      ∀ net ∈ design.nets, net.joins = true →
        net.IsNamedBy design.blockNames design.terminalNames := by
    simp only [joined, List.mem_filter, and_imp]
  have standard : (∀ terminal ∈ design.terminals, terminal.name ∉ Terminal.standardNames) ↔
      Terminal.standardNames.Disjoint (design.terminals.map (·.name)) := by
    rw [List.disjoint_comm, List.disjoint_left]
    simp
  rw [← nets, ← standard]
  constructor
  · intro consistent
    exact ⟨consistent.outline, consistent.nonempty, consistent.distinctBlocks, consistent.complete,
      ⟨consistent.distinctTerminals, consistent.notStandard⟩, consistent.nets, consistent.guides⟩
  · rintro ⟨outline, nonempty, distinct, complete, ⟨distinctTerminals, notStandard⟩, nets, guides⟩
    exact ⟨outline, nonempty, distinct, complete, distinctTerminals, notStandard, nets, guides⟩

/--
A design describes a problem exactly if it is consistent apart from its descriptions of nets without
sinks, which may come from any source.
-/
theorem resolve_succeeds_iff (design : Design α) :
    (∃ problem, design.resolve = .ok problem) ↔ design.joined.IsConsistent := by
  have outline : design.outline.isPositive = true ↔
      Number.IsLength design.outline.width ∧ Number.IsLength design.outline.height := by
    simp [Size.isPositive, BlockDescription.isLength_iff_isLength]
  have complete : (∃ blocks, List.Forall₂ (fun description block => description.resolve = .ok block)
      design.blocks blocks) ↔ ∀ description ∈ design.blocks, description.IsComplete := by
    simp only [← mapM_eq_ok_iff, exists_mapM_eq_ok_iff, BlockDescription.exists_resolve_iff]
  have nets {blocks : List (Block α)}
      (names : (design.named blocks).blockNames = design.blockNames) :
      (∃ nets, (design.nets.zipIdx.mapM fun (net, index) =>
        (design.named blocks).resolveNet index net) = .ok nets) ↔
      ∀ net ∈ design.nets, net.joins = true →
        net.IsNamedBy design.blockNames design.terminalNames := by
    simp only [exists_mapM_eq_ok_iff, Problem.exists_resolveNet_iff, names, terminalNames_named]
    conv_rhs => rw [← List.zipIdx_map_fst 0 design.nets, List.forall_mem_map]
  have guides {blocks : List (Block α)}
      (names : (design.named blocks).blockNames = design.blockNames) :
      (∃ locations, design.guides.mapM (design.named blocks).resolveGuide = .ok locations) ↔
      ∀ guide ∈ design.guides, guide.block ∈ design.blockNames := by
    simp only [exists_mapM_eq_ok_iff, Problem.exists_resolveGuide_iff, names]
  rw [isConsistent_joined_iff, ← outline, ← complete]
  constructor
  · rintro ⟨problem, resolved⟩
    obtain ⟨positive, nonempty, distinct, fresh, blocks, _, _, made, joined, guided, _⟩ :=
      resolve_eq_ok_iff.mp resolved
    have names := blockNames_named made
    exact ⟨positive, nonempty, distinct, ⟨blocks, made⟩, fresh, (nets names).mp ⟨_, joined⟩,
      (guides names).mp ⟨_, guided⟩⟩
  · rintro ⟨positive, nonempty, distinct, ⟨blocks, made⟩, fresh, named, known⟩
    have names := blockNames_named made
    obtain ⟨_, joined⟩ := (nets names).mpr named
    obtain ⟨_, guided⟩ := (guides names).mpr known
    exact ⟨_, resolve_eq_ok_iff.mpr ⟨positive, nonempty, distinct, fresh, blocks, _, _, made, joined,
      guided, rfl⟩⟩

/-- A net without sinks is joined to nothing, whatever its source is. -/
theorem resolve_succeeds_without_source :
    let design : Design ℝ :=
      ⟨⟨1, 1⟩, [⟨"core", some 1, 0, [⟨1, 1⟩], []⟩], [], [.fanout "ghost" []], [], []⟩
    (∃ problem, design.resolve = .ok problem) ∧ ¬ design.IsConsistent := by
  intro design
  constructor
  · refine ⟨{ Problem.ofOutline ⟨1, 1⟩ with blocks := [.soft "core" 1 [⟨1, 1⟩]] }, ?_⟩
    norm_num [design, resolve, checkOutline, Size.isPositive, Number.isLength, Number.isFinite,
      Problem.withBlock, Problem.findBlock?, Problem.lastIndex?, Problem.ofOutline,
      BlockDescription.resolve, BlockDescription.resolveSoft, BlockDescription.checkArea,
      BlockDescription.checkRatios, isRatioRange, Problem.addBlock, Problem.resolveNet, bind,
      Except.bind, pure, Except.pure]
  · intro consistent
    have named := consistent.nets _ List.mem_cons_self "ghost" List.mem_cons_self
    revert named
    decide

end Design

end Floorplanner
