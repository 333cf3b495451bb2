import Floorplanner.Proofs.Block.Slots
import Floorplanner.Proofs.Cost.Range
import Floorplanner.Proofs.Design.Consistency

/-!
A problem that a design describes refers only to what is in it.

Names are looked up among the blocks and terminals of the design, and what is found stands at the
position that is referred to, as long as 32 bits are enough for the positions. Every block has an
option or a range for its first shape.
-/

namespace Floorplanner

variable {α : Type}

namespace Problem

variable {problem : Problem α}

structure IsAddressable (problem : Problem α) : Prop where
  blocks : problem.blocks.length ≤ 2 ^ 32
  terminals : problem.terminals.length ≤ 2 ^ 32

theorem lastIndex?_lt {β : Type} {p : β → Bool} {entries : List β} {index : Nat}
    (found : lastIndex? p entries = some index) : index < entries.length := by
  induction entries generalizing index with
  | nil => cases found
  | cons entry rest induction =>
      rw [lastIndex?] at found
      split at found
      next later position =>
        cases found
        exact Nat.succ_lt_succ (induction position)
      next =>
        split at found
        · cases found
          exact Nat.succ_pos _
        · cases found

variable (addressable : problem.IsAddressable) {name : String} {index : Nat} {net next : Net}
include addressable

theorem index_findBlock?_lt {ref : BlockRef} (found : problem.findBlock? name = some ref) :
    ref.index < problem.blocks.length := by
  obtain ⟨index, last, rfl⟩ := Option.map_eq_some_iff.mp found
  have bound := lastIndex?_lt last
  rwa [Entity.Ref.index_ofIndex (bound.trans_le addressable.blocks)]

theorem index_findTerminal?_lt {ref : TerminalRef} (found : problem.findTerminal? name = some ref) :
    ref.index < problem.terminals.length := by
  obtain ⟨index, last, rfl⟩ := Option.map_eq_some_iff.mp found
  have bound := lastIndex?_lt last
  rwa [Entity.Ref.index_ofIndex (bound.trans_le addressable.terminals)]

theorem isWithin_attach
    (within : net.IsWithin problem.blocks.length problem.terminals.length)
    (attached : problem.attach index net name = .ok next) :
    next.IsWithin problem.blocks.length problem.terminals.length := by
  obtain ⟨ref, found, rfl⟩ | ⟨_, ref, found, rfl⟩ := attach_eq_ok_iff.mp attached
  · refine ⟨within.blocks, ?_⟩
    rw [List.forall_mem_append, List.forall_mem_singleton]
    exact ⟨within.terminals, index_findTerminal?_lt addressable found⟩
  · refine ⟨?_, within.terminals⟩
    rw [List.forall_mem_append, List.forall_mem_singleton]
    exact ⟨within.blocks, index_findBlock?_lt addressable found⟩

theorem isWithin_resolveNet {description : Design.NetDescription} {nets : List Net}
    (resolved : problem.resolveNet index description = .ok nets) :
    ∀ net ∈ nets, net.IsWithin problem.blocks.length problem.terminals.length := by
  cases description with
  | fanout source sinks =>
      refine forall_mem_of_mapM ?_ resolved
      intro sink net joined
      obtain ⟨first, attached, joined⟩ := bind_eq_ok_iff.mp joined
      have within :=
        isWithin_attach addressable ⟨List.forall_mem_nil _, List.forall_mem_nil _⟩ attached
      exact isWithin_attach addressable within joined
  | explicit first second weight =>
      obtain ⟨blocks, blocksFound, resolved⟩ := bind_eq_ok_iff.mp resolved
      obtain ⟨terminals, terminalsFound, equality⟩ := bind_eq_ok_iff.mp resolved
      cases equality
      rw [List.forall_mem_singleton]
      constructor
      · exact forall_mem_of_mapM (fun _ _ found =>
          index_findBlock?_lt addressable (netBlock_eq_ok_iff.mp found)) blocksFound
      · exact forall_mem_of_mapM (fun _ _ found =>
          index_findTerminal?_lt addressable (netTerminal_eq_ok_iff.mp found)) terminalsFound

theorem index_resolveGuide_lt [Number α] {guide : Design.Guide α} {location : Location α}
    (resolved : problem.resolveGuide guide = .ok location) :
    location.block.index < problem.blocks.length := by
  obtain ⟨ref, found, rfl⟩ := resolveGuide_eq_ok_iff.mp resolved
  exact index_findBlock?_lt addressable found

end Problem

namespace Design

variable [Number α] {design : Design α} {problem : Problem α}

theorem hasSlots_resolve {description : BlockDescription α} {block : Block α}
    (resolved : description.resolve = .ok block) : block.form.HasSlots := by
  rcases BlockDescription.resolve_cases resolved with
    ⟨_, _, first, member, rfl⟩ | ⟨_, describes, _, _, rfl⟩
  · exact List.length_pos_of_mem (List.mem_of_mem_head? member)
  · refine ⟨?_, List.length_map _, List.length_map _⟩
    rw [← List.length_pos_iff, List.length_mergeSort, List.length_pos_iff]
    exact describes.nonempty

/-- The blocks of a problem are those of its design, one for each description and in their order. -/
theorem kinds_of_resolve (resolved : design.resolve = .ok problem) :
    problem.blocks.map (fun block => (block.name, block.isHard)) =
      design.blocks.map fun description => (description.name, decide (0 < description.macros)) := by
  obtain ⟨_, _, _, _, blocks, _, _, made, _, _, rfl⟩ := resolve_eq_ok_iff.mp resolved
  change blocks.map _ = _
  rw [← List.forall₂_eq_eq_eq, List.forall₂_map_left_iff, List.forall₂_map_right_iff]
  apply made.flip.imp
  intro block description made
  obtain ⟨name, isHard⟩ := BlockDescription.kind_resolve made
  exact Prod.ext name isHard

theorem nonempty_of_resolve (resolved : design.resolve = .ok problem) : problem.blocks ≠ [] := by
  obtain ⟨_, nonempty, _⟩ := resolve_eq_ok_iff.mp resolved
  intro empty
  have kinds := kinds_of_resolve resolved
  rw [empty, List.map_nil] at kinds
  exact nonempty (List.map_eq_nil_iff.mp kinds.symm)

theorem hasSlots_of_resolve (resolved : design.resolve = .ok problem) :
    ∀ block ∈ problem.blocks, block.form.HasSlots := by
  obtain ⟨_, _, _, _, blocks, _, _, made, _, _, rfl⟩ := resolve_eq_ok_iff.mp resolved
  exact forall_mem_of_mapM (fun _ _ => hasSlots_resolve) (mapM_eq_ok_iff.mpr made)

theorem isClosed_of_resolve (resolved : design.resolve = .ok problem)
    (addressable : problem.IsAddressable) : problem.IsClosed := by
  obtain ⟨_, _, _, _, blocks, _, _, _, joined, guided, rfl⟩ := resolve_eq_ok_iff.mp resolved
  have named : (design.named blocks).IsAddressable := ⟨addressable.blocks, addressable.terminals⟩
  constructor
  · intro net member
    obtain ⟨nets, made, member⟩ := List.mem_flatten.mp member
    have within := forall_mem_of_mapM (fun _ _ => Problem.isWithin_resolveNet named) joined
    exact within nets made net member
  · exact forall_mem_of_mapM (fun _ _ => Problem.index_resolveGuide_lt named) guided

end Design

end Floorplanner
