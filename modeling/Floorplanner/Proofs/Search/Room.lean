import Floorplanner.Floorplan

/-!
The room that a search asks for.

A search that is granted room for all of its lists goes through its stages; one that is not ends
without a plan. How long the lists are follows from the configuration alone, and fewer levels never
make one of them longer.
-/

namespace Floorplanner

variable {α : Type} {config other : Config α}

namespace Search

def HasRoom (config : Config α) : Prop := ∀ list : Reservation, list.isGranted config = true

theorem hasRoom_iff :
    HasRoom config ↔
      ([.seeds, .samples] : List Reservation).all (·.isGranted config) = true ∧
        ([.coolingRates, .summaries, .outcomes] : List Reservation).all (·.isGranted config) =
          true := by
  simp only [List.all_eq_true, List.forall_mem_cons, List.not_mem_nil, false_implies,
    implies_true, and_true]
  constructor
  · intro room
    exact ⟨⟨room _, room _⟩, room _, room _, room _⟩
  · intro ⟨⟨seeds, samples⟩, coolingRates, summaries, outcomes⟩ list
    cases list <;> assumption

instance : Decidable (HasRoom config) := decidable_of_iff _ hasRoom_iff.symm

theorem HasRoom.of_length_le (room : HasRoom config)
    (shorter : ∀ list : Reservation, list.length other ≤ list.length config) : HasRoom other := by
  intro list
  have granted := of_decide_eq_true (room list)
  exact decide_eq_true (Nat.lt_of_le_of_lt (Nat.mul_le_mul_right _ (shorter list)) granted)

end Search

variable {σ : Type} [Number α] [NumberText α] [SeededSource σ] [IndexSource σ] [FractionSource σ α]
  {problem : Problem α}

theorem floorplan_of_isEmpty (none : problem.blocks = []) (journal : Journal) :
    floorplan σ problem config journal = ⟨.error .noBlocks, journal⟩ := by
  rw [floorplan, none]
  rfl

section Blocks

variable (nonempty : problem.blocks ≠ [])
include nonempty

theorem floorplan_of_hasRoom (room : Search.HasRoom config) (journal : Journal) :
    floorplan σ problem config journal =
      let (start, calibration) :=
        Search.sample σ problem config ((Search.seeds σ config).headD 0)
      let journal :=
        journal.emitAll [Progress.started problem config, Progress.sampled config calibration]
      match Search.levels σ problem config (Search.seeds σ config) start calibration with
      | .error error => ⟨.error error, journal⟩
      | .ok (winner, levels) =>
          let plan := Plan.finish problem config winner calibration levels
          ⟨.ok plan,
            journal.emitAll (levels.map Progress.levelFinished ++ Progress.finished plan)⟩ := by
  have some : ¬ problem.blocks.isEmpty = true := by simpa using nonempty
  obtain ⟨first, later⟩ := Search.hasRoom_iff.mp room
  unfold floorplan
  dsimp only
  rw [if_neg some, if_pos first, if_pos later]
  rfl

theorem result_floorplan_of_not_hasRoom (crowded : ¬ Search.HasRoom config) (journal : Journal) :
    (floorplan σ problem config journal).result = .error .capacityOverflow := by
  have some : ¬ problem.blocks.isEmpty = true := by simpa using nonempty
  rw [Search.hasRoom_iff, not_and] at crowded
  unfold floorplan
  dsimp only
  rw [if_neg some]
  split
  next first => rw [if_neg (crowded first)]
  next => rfl

end Blocks

end Floorplanner
