import Floorplanner.Command.Arguments
import Floorplanner.Command.Host
import Floorplanner.Config.Document
import Floorplanner.Design.Document
import Floorplanner.Floorplan
import Floorplanner.Path
import Floorplanner.Plan.Report
import Floorplanner.Random.Generator

/-!
Carrying out requests.

The configuration is looked for and read before the design, and the first thing that is wrong ends a
command. A plan that does not fit its outline is a result like any other, but shows in the exit
code.
-/

namespace Floorplanner

namespace Command

inductive Failure where
  | input (error : InputError Float)
  | design (error : DesignError Float)
  | search (error : SearchError)
  | output (error : FileError)
  deriving Repr

def Failure.message : Failure → String
  | input error => error.message NumberText.plain
  | design error => error.message NumberText.plain
  | search error => error.message
  | output error => error.message

namespace ExitCode

def success : UInt32 := 0

def failure : UInt32 := 1

def infeasible : UInt32 := 2

def usage : UInt32 := 2

/-- The run was broken off, with no failure to report. -/
def crash : UInt32 := 101

end ExitCode

def configName : String := "acre.toml"

def versionText : String := "acre 0.1.0\n"

def helpText : String :=
  usage ++ "\n\n" ++
    "Commands:\n" ++
    "  place  Floorplan a design\n" ++
    "  check  Load and resolve a design without floorplanning it\n\n" ++
    "Options:\n" ++
    "  -q, --quiet            Print errors only\n" ++
    "  -v, --verbose          Print progress notes too\n" ++
    "      --color <WHEN>     auto, always or never\n" ++
    "      --config <FILE>    Configuration to use instead of acre.toml beside the design\n" ++
    "  -h, --help             Print this text\n" ++
    "  -V, --version          Print the version\n\n" ++
    "Options of place:\n" ++
    "  -o, --output <FILE>    Write the report as JSON instead of printing it\n" ++
    "  -f, --format <FORM>    Print the report as text or json\n" ++
    "      --seed <NUMBER>    Seed of all randomness\n" ++
    "      --workers <NUMBER> Annealing runs in a level\n" ++
    "      --levels <NUMBER>  Number of levels\n"

def isShown (common : Common) (severity : Severity) : Bool :=
  if common.quiet then severity == .error
  else if common.verbose then true
  else decide (Severity.rank .warning ≤ severity.rank)

def Placement.override {α : Type} (placement : Placement) (config : Config α) : Config α :=
  { config with
    seed := placement.seed.getD config.seed
    parallel := { config.parallel with
      workers := placement.workers.getD config.parallel.workers
      levels := placement.levels.getD config.parallel.levels } }

def configBeside (design : String) : String :=
  (((Path.ofText design).parent?.getD (Path.ofText ".")).child configName).text

variable {m : Type → Type} [Monad m] [Host m]

abbrev Step (m : Type → Type) := ExceptT Failure m

def Step.ofExcept {ε β : Type} (failure : ε → Failure) (result : Except ε β) : Step m β :=
  match result with
  | .ok value => pure value
  | .error error => throw (failure error)

def Step.say (common : Common) (line : String) : Step m Unit :=
  if common.quiet then pure () else ExceptT.lift (Host.report (line ++ "\n"))

def Step.readFile (path : String) : Step m String := do
  Step.ofExcept (fun cause => .input (.unreadable cause)) (← ExceptT.lift (Host.read path))

def configPath? (common : Common) (design : String) : m (Option String) := do
  match common.config with
  | some path => return some path
  | none =>
      let path := configBeside design
      return if ← Host.isFile path then some path else none

def loadConfig (common : Common) (design : String) : Step m (Config Float) := do
  match ← ExceptT.lift (configPath? common design) with
  | none => return .default
  | some path => Step.ofExcept .input (Config.read (← Step.readFile path))

def loadProblem (path : String) : Step m (Problem Float) := do
  let text ← Step.readFile path
  let design ← Step.ofExcept .input (Design.read (Design.Format.ofPath path) text)
  Step.ofExcept .design design.resolve

def showDiagnostics (common : Common) (diagnostics : List Diagnostic) : m Unit := do
  let color := common.coloring.isOn (← Host.hasTerminal)
  for diagnostic in diagnostics.filter fun diagnostic => isShown common diagnostic.severity do
    Host.report (diagnostic.render color ++ "\n")

def emitReport (common : Common) (placement : Placement) (plan : Plan Float) : Step m Unit := do
  match placement.output with
  | some path =>
      Step.ofExcept .output (← ExceptT.lift (Host.write path plan.toJson.pretty))
      Step.say common ("   Wrote " ++ path)
  | none =>
      match placement.form with
      | .text => ExceptT.lift (Host.print plan.table)
      | .json => ExceptT.lift (Host.print (plan.toJson.pretty ++ "\n"))

def resultLine (plan : Plan Float) : String :=
  "   Result: " ++ Progress.sizeText plan.size ++ " in " ++ Progress.sizeText plan.outline ++
    (if plan.feasible then ", feasible" else ", infeasible")

def conclude (common : Common) (placement : Placement) : Reported (Plan Float) → Step m UInt32
  | ⟨.ok plan, journal⟩ => do
      ExceptT.lift (showDiagnostics common journal.entries)
      emitReport common placement plan
      Step.say common (resultLine plan)
      return if plan.feasible then ExitCode.success else ExitCode.infeasible
  | ⟨.error .capacityOverflow, _⟩ => do
      ExceptT.lift (Host.report (SearchError.capacityOverflow.reason ++ "\n"))
      return ExitCode.crash
  | ⟨.error error, _⟩ => throw (.search error)

def place (common : Common) (placement : Placement) : Step m UInt32 := do
  let config := placement.override (← loadConfig common placement.design)
  Step.ofExcept .input config.validate
  let problem ← loadProblem placement.design
  Step.say common ("   Placing " ++ placement.design ++ " (" ++
    toString problem.blocks.length ++ " blocks, " ++ toString problem.nets.length ++ " nets)")
  conclude common placement (floorplan Generator problem config .empty)

def summaryLines (design : String) (problem : Problem Float) (config : Config Float) :
    List String := [
  "   Checked " ++ design,
  "   outline " ++ NumberText.plain problem.outline.width ++ " x " ++
    NumberText.plain problem.outline.height,
  "   " ++ toString problem.blocks.length ++ " blocks (" ++ toString problem.hardCount ++
    " hard macros), " ++ toString problem.nets.length ++ " nets, " ++
    toString problem.regions.length ++ " regions, " ++ toString problem.locations.length ++
    " locations",
  "   " ++ toString config.parallel.levels ++ " levels of " ++ toString config.parallel.workers ++
    " workers, seed " ++ toString config.seed.toNat]

def check (common : Common) (design : String) : Step m UInt32 := do
  let config ← loadConfig common design
  let problem ← loadProblem design
  Step.say common ("\n".intercalate (summaryLines design problem config))
  return ExitCode.success

def settle (step : Step m UInt32) : m UInt32 := do
  match ← step.run with
  | .ok code => return code
  | .error failure => do
      Host.report ("error: " ++ failure.message ++ "\n")
      return ExitCode.failure

def execute : Request → m UInt32
  | .version => do
      Host.print versionText
      return ExitCode.success
  | .help => do
      Host.print helpText
      return ExitCode.success
  | .place common placement => settle (place common placement)
  | .check common design => settle (check common design)

def run (arguments : List String) : m UInt32 := do
  match Request.ofArguments arguments with
  | .ok request => execute request
  | .error error => do
      Host.report ("error: " ++ error.message ++ "\n\n" ++ usage ++ "\n")
      return ExitCode.usage

end Command

end Floorplanner
