import Mathlib
import Floorplanner.Cost.Model
import Floorplanner.Proofs.Design.WellFormed
import Floorplanner.Proofs.Pointwise

/-!
What a fanout is short for.

A fanout stands for nets of two pins that join its source to each of its sinks, with the weight of
the sink. A design may as well list them one by one, each name as a terminal if there is one of that
name and as a block otherwise. It then describes the same problem, or none if it described none.
-/

namespace Floorplanner

variable {α : Type}

def Net.pinCount (net : Net) : Nat := net.blocks.length + net.terminals.length

namespace Design

def Wiring.explicit (wiring : Wiring) : NetDescription :=
  .explicit wiring.blocks wiring.terminals wiring.weight

namespace NetDescription

def expand (terminals : List String) : NetDescription → List NetDescription
  | .fanout source sinks =>
      sinks.map fun sink => (Wiring.ofPins terminals [source, sink.name] sink.weight).explicit
  | .explicit blocks names weight => [.explicit blocks names weight]

/-- Nets of two pins for the sinks of a fanout, or one net with the pins that are listed. -/
def IsMetBy : NetDescription → List Net → Prop
  | .fanout _ sinks, nets =>
      List.Forall₂ (fun sink net => net.pinCount = 2 ∧ net.weight = sink.weight) sinks nets
  | .explicit blocks terminals weight, nets =>
      ∃ net, nets = [net] ∧ net.blocks.length = blocks.length ∧
        net.terminals.length = terminals.length ∧ net.weight = weight

theorem flatMap_wirings_expand (terminals : List String) (description : NetDescription) :
    (description.expand terminals).flatMap (·.wirings terminals) =
      description.wirings terminals := by
  cases description with
  | fanout source sinks =>
      rw [expand, List.flatMap_map]
      exact List.map_eq_flatMap.symm
  | explicit => rfl

end NetDescription

def expanded [Number α] (design : Design α) : Design α :=
  { design with nets := design.nets.flatMap (·.expand design.terminalNames) }

end Design

namespace Problem

open Design

variable {problem : Problem α} {net : Net}

/-- Descriptions are resolved exactly to nets that connect their wirings one by one. -/
theorem exists_resolveNets_iff {descriptions : List NetDescription} {nets : List Net} :
    (∃ groups, (descriptions.zipIdx.mapM fun (net, index) => problem.resolveNet index net) =
        .ok groups ∧ nets = groups.flatten) ↔
      List.Forall₂ problem.Connects
        (descriptions.flatMap (·.wirings problem.terminalNames)) nets := by
  simp only [mapM_eq_ok_iff, resolveNet_eq_ok_iff, forall₂_flatMap_left_iff]
  conv_rhs => rw [← List.zipIdx_map_fst 0 descriptions]
  simp only [List.forall₂_map_left_iff]

theorem Connects.pinCount {names : List String} {weight : Nat}
    (connects : problem.Connects (.ofPins problem.terminalNames names weight) net) :
    net.pinCount = names.length := by
  have split := List.length_eq_length_filter_add (l := names) (· ∈ problem.terminalNames)
  simp only [← decide_not] at split
  rw [Net.pinCount, ← connects.blocks.length_eq, ← connects.terminals.length_eq, split, add_comm]
  rfl

theorem isMetBy_of_connects {description : NetDescription} {nets : List Net}
    (connects : List.Forall₂ problem.Connects (description.wirings problem.terminalNames) nets) :
    description.IsMetBy nets := by
  cases description with
  | fanout source sinks =>
      rw [NetDescription.wirings, List.forall₂_map_left_iff] at connects
      exact connects.imp fun _ _ pins => ⟨pins.pinCount, pins.weight⟩
  | explicit blocks terminals weight =>
      obtain _ | ⟨pins, ⟨⟩⟩ := connects
      exact ⟨_, rfl, pins.blocks.length_eq.symm, pins.terminals.length_eq.symm, pins.weight⟩

end Problem

namespace Design

variable [Number α] {design : Design α} {problem : Problem α}

theorem resolve_eq_ok_iff_connects :
    design.resolve = .ok problem ↔
      design.outline.isPositive = true ∧ design.blocks ≠ [] ∧ design.blockNames.Nodup ∧
        ((design.terminals.map (·.name)).Nodup ∧
          Terminal.standardNames.Disjoint (design.terminals.map (·.name))) ∧
        ∃ blocks nets locations,
          List.Forall₂ (fun description block => description.resolve = .ok block)
            design.blocks blocks ∧
          List.Forall₂ (design.named blocks).Connects
            (design.nets.flatMap (·.wirings design.terminalNames)) nets ∧
          design.guides.mapM (design.named blocks).resolveGuide = .ok locations ∧
          problem = { design.named blocks with nets, regions := design.regions, locations } := by
  have joins (blocks : List (Block α)) (nets : List Net) :
      (∃ groups, (design.nets.zipIdx.mapM fun (net, index) =>
          (design.named blocks).resolveNet index net) = .ok groups ∧ nets = groups.flatten) ↔
        List.Forall₂ (design.named blocks).Connects
          (design.nets.flatMap (·.wirings design.terminalNames)) nets := by
    rw [← terminalNames_named blocks]
    exact Problem.exists_resolveNets_iff
  rw [resolve_eq_ok_iff]
  constructor
  · rintro ⟨positive, nonempty, distinct, fresh, blocks, groups, locations, made, joined, guided,
      rfl⟩
    exact ⟨positive, nonempty, distinct, fresh, blocks, _, locations, made,
      (joins _ _).mp ⟨groups, joined, rfl⟩, guided, rfl⟩
  · rintro ⟨positive, nonempty, distinct, fresh, blocks, _, locations, made, connects, guided, rfl⟩
    obtain ⟨groups, joined, rfl⟩ := (joins _ _).mpr connects
    exact ⟨positive, nonempty, distinct, fresh, blocks, groups, locations, made, joined, guided,
      rfl⟩

theorem wirings_expanded (design : Design α) :
    design.expanded.nets.flatMap (·.wirings design.expanded.terminalNames) =
      design.nets.flatMap (·.wirings design.terminalNames) := by
  change (design.nets.flatMap (·.expand design.terminalNames)).flatMap _ = _
  rw [List.flatMap_assoc]
  exact congrArg (List.flatMap · _) (funext (NetDescription.flatMap_wirings_expand _))

/-- Written out, a design describes the very problem that it describes as it is. -/
theorem resolve_expanded_eq_ok_iff :
    design.expanded.resolve = .ok problem ↔ design.resolve = .ok problem := by
  rw [resolve_eq_ok_iff_connects, resolve_eq_ok_iff_connects, wirings_expanded]
  rfl

theorem nets_of_resolve (resolved : design.resolve = .ok problem) :
    ∃ groups, problem.nets = groups.flatten ∧
      List.Forall₂ NetDescription.IsMetBy design.nets groups := by
  obtain ⟨_, _, _, _, blocks, _, _, _, connects, _, rfl⟩ := resolve_eq_ok_iff_connects.mp resolved
  rw [← terminalNames_named blocks] at connects
  obtain ⟨groups, all, equality⟩ := forall₂_flatMap_left_iff.mp connects
  exact ⟨groups, equality, all.imp fun _ _ => Problem.isMetBy_of_connects⟩

/--
Whether fanouts are left as they are or written out, a design describes a problem of the same nets
in the same order, and of the same wirelength, or it describes none. For each sink of a fanout there
is a net of two pins.
-/
theorem expansion_resolves_alike (design : Design α) :
    ((∃ problem, design.resolve = .ok problem) ↔
      ∃ other, design.expanded.resolve = .ok other) ∧
    ∀ problem other, design.resolve = .ok problem → design.expanded.resolve = .ok other →
      other.nets = problem.nets ∧
      (∃ groups, problem.nets = groups.flatten ∧
        List.Forall₂ NetDescription.IsMetBy design.nets groups) ∧
      ∀ blocks, Cost.wirelength other blocks = Cost.wirelength problem blocks := by
  simp only [resolve_expanded_eq_ok_iff, true_and]
  intro problem other resolved written
  cases resolved.symm.trans written
  exact ⟨rfl, nets_of_resolve resolved, fun _ => rfl⟩

/-- A terminal and a block are both called `clk`. A fanout joins the terminal. -/
theorem expansion_resolves_alike_clk :
    let design : Design ℝ :=
      ⟨⟨6, 5⟩, [⟨"core", some 4, 0, [⟨1, 1⟩], []⟩, ⟨"clk", some 1, 0, [⟨1, 1⟩], []⟩],
        [⟨"clk", 3, 0⟩],
        [.fanout "clk" [⟨"core", 2⟩, ⟨"LL", 1⟩], .explicit ["clk"] [] 3], [], []⟩
    design.expanded.nets =
        [.explicit ["core"] ["clk"] 2, .explicit [] ["clk", "LL"] 1, .explicit ["clk"] [] 3] ∧
      ∃ problem other, design.resolve = .ok problem ∧ design.expanded.resolve = .ok other ∧
        other.nets = problem.nets ∧
        (∃ groups, problem.nets = groups.flatten ∧
          List.Forall₂ NetDescription.IsMetBy design.nets groups) ∧
        ∀ blocks, Cost.wirelength other blocks = Cost.wirelength problem blocks := by
  intro design
  let blocks : List (Block ℝ) := [.soft "core" 4 [⟨1, 1⟩], .soft "clk" 1 [⟨1, 1⟩]]
  let problem : Problem ℝ :=
    { design.named blocks with
      nets := [⟨[⟨0⟩], [⟨12⟩], 2⟩, ⟨[], [⟨12⟩, ⟨0⟩], 1⟩, ⟨[⟨1⟩], [], 3⟩]
      regions := []
      locations := [] }
  have resolved : design.resolve = .ok problem := by
    refine resolve_eq_ok_iff.mpr ⟨?_, ?_, ?_, ⟨?_, ?_⟩, blocks, _, _, ?_, rfl, rfl, rfl⟩
    · norm_num [design, Size.isPositive, Number.isLength, Number.isFinite]
    · exact List.cons_ne_nil _ _
    · decide
    · decide
    · simp [design, Terminal.standardNames]
    · have soft (name : String) (area : ℝ) (positive : 0 < area) :
          BlockDescription.resolve ⟨name, some area, 0, [⟨1, 1⟩], []⟩ =
            .ok (.soft name area [⟨1, 1⟩]) := by
        refine (if_neg (lt_irrefl 0)).trans
          (BlockDescription.resolveSoft_eq_ok_iff.mpr ⟨?_, area, rfl, rfl⟩)
        constructor
        · exact ⟨area, rfl, positive, rfl⟩
        · exact List.cons_ne_nil _ _
        · simp [Number.isFinite]
      exact .cons (soft "core" 4 (by norm_num)) (.cons (soft "clk" 1 one_pos) .nil)
  have written : design.expanded.resolve = .ok problem := resolve_expanded_eq_ok_iff.mpr resolved
  exact ⟨by decide, problem, problem, resolved, written,
    (expansion_resolves_alike design).2 problem problem resolved written⟩

end Design

end Floorplanner
