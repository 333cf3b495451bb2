import Floorplanner.Diagnostic
import Floorplanner.Plan
import Floorplanner.Text.NumberText

/-! What is reported of a run. -/

namespace Floorplanner

namespace Progress

variable {α : Type} [Number α] [NumberText α]

def note (code : Diagnostic.Code) (message : String) (notes : List String) : Diagnostic :=
  { severity := .note, code, message, notes, help := [] }

def started (problem : Problem α) (config : Config α) : Diagnostic :=
  note .started
    ("floorplanning " ++ toString problem.blocks.length ++ " blocks (" ++
      toString problem.hardCount ++ " hard macros) and " ++ toString problem.nets.length ++ " nets")
    [toString config.parallel.levels ++ " levels of " ++ toString config.parallel.workers ++
      " workers, seed " ++ toString config.seed.toNat]

def entry (label : String) (value : α) : String := label ++ " " ++ NumberText.fixed 3 value

def commaSeparated (entries : List String) : String := ", ".intercalate entries

def sampled (config : Config α) (calibration : Calibration α) : Diagnostic :=
  let norms := calibration.norms
  note .sampled
    ("sampled " ++ toString config.annealing.movesPerStep ++ " moves, initial temperature " ++
      NumberText.fixed 6 calibration.temperature)
    ["norms: " ++ commaSeparated
        [entry "area" norms.area, entry "wirelength" norms.wirelength,
          entry "outline" norms.outline, entry "boundary" norms.boundary],
      "norms: " ++ commaSeparated
        [entry "macro blockage" norms.macroBlockage, entry "location" norms.location,
          entry "notch" norms.notch]]

def pairEntry (label : String) (value normalized : α) : String :=
  entry label value ++ " (" ++ NumberText.fixed 4 normalized ++ ")"

def levelFinished (summary : LevelSummary α) : Diagnostic :=
  let { level, cost, terms, normalized } := summary
  note (.level level)
    ("level " ++ toString level ++ " finished with cost " ++ NumberText.fixed 6 cost)
    [commaSeparated
        [pairEntry "area" terms.area normalized.area,
          pairEntry "wirelength" terms.wirelength normalized.wirelength,
          pairEntry "outline" terms.outline normalized.outline],
      commaSeparated
        [pairEntry "boundary" terms.boundary normalized.boundary,
          pairEntry "macro blockage" terms.macroBlockage normalized.macroBlockage],
      commaSeparated
        [pairEntry "location" terms.location normalized.location,
          pairEntry "notch" terms.notch normalized.notch]]

def sizeText (size : Size α) : String :=
  NumberText.fixed 3 size.width ++ " x " ++ NumberText.fixed 3 size.height

def finished (plan : Plan α) : List Diagnostic :=
  note .finished ("floorplan " ++ sizeText plan.size ++ " in outline " ++ sizeText plan.outline) [] ::
    if plan.feasible then []
    else
      [{ severity := .warning
         code := .infeasible
         message := "floorplan exceeds the outline after " ++ toString Annealer.maxRestarts ++
           " restarts"
         notes := ["layout " ++ sizeText plan.size ++ ", outline " ++ sizeText plan.outline]
         help := ["enlarge the outline or lower the soft block areas"] }]

end Progress

end Floorplanner
