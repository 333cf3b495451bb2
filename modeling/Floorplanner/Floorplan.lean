import Floorplanner.Diagnostic.Journal
import Floorplanner.Progress

/-!
Floorplanning a problem, from sampling to the aligned plan.

The configuration and its seed determine the result. Problems are expected to be resolved designs,
and configurations to have passed their check.
-/

namespace Floorplanner

variable {α : Type} [Number α] [NumberText α]

structure Reported (β : Type) where
  result : Except SearchError β
  journal : Journal

/--
Floorplans a problem. Nothing is reported of a problem without blocks, and a list that there is no
room for ends the run where it would be made.
-/
def floorplan (σ : Type) [SeededSource σ] [IndexSource σ] [FractionSource σ α]
    (problem : Problem α) (config : Config α) (journal : Journal) : Reported (Plan α) :=
  let hasRoom := fun (lists : List Search.Reservation) => lists.all (·.isGranted config)
  if problem.blocks.isEmpty then ⟨.error .noBlocks, journal⟩
  else
    let journal := journal.emit (Progress.started problem config)
    if hasRoom [.seeds, .samples] then
      let seeds := Search.seeds σ config
      let (start, calibration) := Search.sample σ problem config (seeds.headD 0)
      let journal := journal.emit (Progress.sampled config calibration)
      if hasRoom [.coolingRates, .summaries, .outcomes] then
        match Search.levels σ problem config seeds start calibration with
        | .error error => ⟨.error error, journal⟩
        | .ok (winner, levels) =>
            let plan := Plan.finish problem config winner calibration levels
            ⟨.ok plan,
              journal.emitAll (levels.map Progress.levelFinished ++ Progress.finished plan)⟩
      else ⟨.error .capacityOverflow, journal⟩
    else ⟨.error .capacityOverflow, journal⟩

end Floorplanner
