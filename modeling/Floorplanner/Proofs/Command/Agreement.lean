import Mathlib
import Floorplanner.Proofs.Command.Steps
import Floorplanner.Proofs.Search.Success

/-!
What a check promises of a placement.

Both commands load the same configuration and the same problem, and what cannot be loaded ends both.
Once they are loaded, the configuration has workers and the problem has blocks, so the search comes to
a plan, whether that fits or not, if only there is room for its lists. That is all a check leaves open.
-/

namespace Floorplanner

namespace Command

open Workspace

def Placement.asConfigured (design : String) (output : Option String) (form : ReportForm) :
    Placement where
  design
  output
  form
  seed := none
  workers := none
  levels := none

structure Loads (session : Session) (common : Common) (design : String) (config : Config Float)
    (problem : Problem Float) : Prop where
  config : (loadConfig common design).outcome session = (.ok config, session)
  problem : (loadProblem design).outcome session = (.ok problem, session)

variable {session : Session} {common : Common} {design : String} {config : Config Float}
  {problem : Problem Float}

theorem ensures_conclude_of_ok (common : Common) {placement : Placement}
    {reported : Reported (Plan Float)} {plan : Plan Float} (planned : reported.result = .ok plan)
    (writable : ∀ path ∈ placement.output, ∃ target, session.workspace.target path = .ok target) :
    Step.Ensures (conclude common placement reported) session
      fun code _ => code = ExitCode.success ∨ code = ExitCode.infeasible := by
  obtain ⟨_, journal⟩ := reported
  subst planned
  apply (ensures_showDiagnostics common _).bind
  intro _ shown kept
  apply (ensures_emitReport common plan (kept ▸ writable)).bind
  intro _ _ _
  apply (ensures_say common _).bind
  intro _ last _
  refine ⟨_, last, rfl, ?_⟩
  cases plan.feasible with
  | true => exact .inl rfl
  | false => exact .inr rfl

theorem ensures_conclude_of_capacityOverflow (common : Common) (placement : Placement)
    {reported : Reported (Plan Float)} (crashed : reported.result = .error .capacityOverflow) :
    Step.Ensures (conclude common placement reported) session
      fun code _ => code = ExitCode.crash := by
  obtain ⟨_, journal⟩ := reported
  subst crashed
  exact ⟨_, _, rfl, rfl⟩

namespace Loads

theorem valid (loads : Loads session common design config problem) : config.check = .ok () := by
  obtain ⟨_, outcome, valid⟩ := finds_loadConfig common design session
  cases outcome.symm.trans loads.config
  exact valid config rfl

theorem resolved (loads : Loads session common design config problem) :
    ∃ description : Design Float, description.resolve = .ok problem := by
  obtain ⟨_, outcome, resolved⟩ := finds_loadProblem design session
  cases outcome.symm.trans loads.problem
  exact resolved problem rfl

theorem exists_plan (loads : Loads session common design config problem)
    (room : Search.HasRoom config) :
    ∃ plan, (floorplan Generator problem config .empty).result = .ok plan := by
  obtain ⟨description, resolved⟩ := loads.resolved
  obtain ⟨_, _, _, _, parallel, _⟩ := Config.check_eq_ok_iff.mp loads.valid
  have workers := Config.Parallel.workers_pos parallel
  obtain ⟨plan, planned, _⟩ := Floorplanner.exists_plan (σ := Generator)
    (Design.nonempty_of_resolve resolved) workers room .empty
  exact ⟨plan, planned⟩

theorem breaksOff (loads : Loads session common design config problem)
    (crowded : ¬ Search.HasRoom config) :
    (floorplan Generator problem config .empty).result = .error .capacityOverflow := by
  obtain ⟨description, resolved⟩ := loads.resolved
  exact result_floorplan_of_not_hasRoom (Design.nonempty_of_resolve resolved) crowded .empty

theorem config_unique {other : Config Float} {another : Problem Float}
    (loads : Loads session common design config problem)
    (again : Loads session common design other another) : other = config := by
  cases again.config.symm.trans loads.config
  rfl

theorem isInRange (loads : Loads session common design config problem)
    (addressable : problem.IsAddressable) : Search.IsInRange Generator problem config := by
  obtain ⟨description, resolved⟩ := loads.resolved
  obtain ⟨_, _, _, _, parallel, _⟩ := Config.check_eq_ok_iff.mp loads.valid
  have usable := Design.isUsable_of_resolve resolved addressable
  exact Search.isInRange usable (Config.Parallel.workers_pos parallel)

theorem ensures_check (loads : Loads session common design config problem) :
    Step.Ensures (check common design) session fun code _ => code = ExitCode.success := by
  apply (ensures_of_outcome loads.config).bind
  rintro config _ ⟨rfl, rfl⟩
  apply (ensures_of_outcome loads.problem).bind
  rintro problem _ ⟨rfl, rfl⟩
  apply (ensures_say common _).bind
  intro _ last _
  exact ⟨_, last, rfl, rfl⟩

theorem ensures_place (output : Option String) (form : ReportForm)
    {holds : UInt32 → Session → Prop} (loads : Loads session common design config problem)
    (concludes : ∀ said : Session, said.workspace = session.workspace →
      Step.Ensures (conclude common (.asConfigured design output form)
        (floorplan Generator problem config .empty)) said holds) :
    Step.Ensures (place common (.asConfigured design output form)) session holds := by
  apply (ensures_of_outcome loads.config).bind
  rintro config _ ⟨rfl, rfl⟩
  apply (ensures_ofExcept (Config.validate_eq_ok_iff.mpr loads.valid)).bind
  rintro _ _ ⟨rfl, rfl⟩
  apply (ensures_of_outcome loads.problem).bind
  rintro problem _ ⟨rfl, rfl⟩
  apply (ensures_say common _).bind
  intro _ said kept
  exact concludes said kept

theorem exitCode_place {output : Option String} (form : ReportForm)
    (loads : Loads session common design config problem)
    (writable : ∀ path ∈ output, ∃ target, session.workspace.target path = .ok target) :
    let code := exitCode session (.place common (.asConfigured design output form))
    if Search.HasRoom config then code = ExitCode.success ∨ code = ExitCode.infeasible
      else code = ExitCode.crash := by
  split
  next room =>
    obtain ⟨plan, planned⟩ := loads.exists_plan room
    have placed := loads.ensures_place output form fun said kept =>
      ensures_conclude_of_ok common planned (kept ▸ writable)
    obtain ⟨_, ends⟩ := placed.settles
    exact ends
  next crowded =>
    have crashed := loads.ensures_place output form fun said _ =>
      ensures_conclude_of_capacityOverflow common _ (loads.breaksOff crowded)
    obtain ⟨_, ends⟩ := crashed.settles
    exact ends

end Loads

/-- A command that cannot load what it works on fails, whichever of the two it is. -/
theorem loads_or_fails (session : Session) (common : Common) (design : String)
    (output : Option String) (form : ReportForm) :
    (∃ config problem, Loads session common design config problem) ∨
      exitCode session (.check common design) = ExitCode.failure ∧
        exitCode session (.place common (.asConfigured design output form)) =
          ExitCode.failure ∧
        ∀ config problem, ¬ Loads session common design config problem := by
  obtain ⟨configured, configures, valid⟩ := finds_loadConfig common design session
  obtain ⟨loaded, loads, _⟩ := finds_loadProblem design session
  cases configured with
  | error failure =>
      right
      have fails : Step.Fails (loadConfig common design) session := ⟨failure, session, configures⟩
      refine ⟨(fails.bind _).settles, (fails.bind _).settles, ?_⟩
      intro config problem loads
      cases configures.symm.trans loads.config
  | ok config =>
      cases loaded with
      | ok problem => exact .inl ⟨config, problem, configures, loads⟩
      | error failure =>
          right
          have fails : Step.Fails (loadProblem design) session := ⟨failure, session, loads⟩
          have valid : config.validate = .ok () :=
            Config.validate_eq_ok_iff.mpr (valid config rfl)
          refine ⟨?_, ?_, ?_⟩
          · apply Step.Fails.settles
            apply (ensures_of_outcome configures).bind_fails
            rintro config _ ⟨rfl, rfl⟩
            exact fails.bind _
          · apply Step.Fails.settles
            apply (ensures_of_outcome configures).bind_fails
            rintro config _ ⟨rfl, rfl⟩
            apply (ensures_ofExcept valid).bind_fails
            rintro _ _ ⟨rfl, rfl⟩
            exact fails.bind _
          · intro config problem again
            cases loads.symm.trans again.problem

/--
A check succeeds where a placement comes to a plan, whether that fits or not, or is broken off. It is
broken off just when there is no room for the lists of the search. Nothing that the search looks up
is missing after a check.
-/
theorem check_iff_place_or_crash {session : Session} {common : Common} {design : String}
    {output : Option String} {form : ReportForm}
    (writable : ∀ path ∈ output, ∃ target, session.workspace.target path = .ok target) :
    (exitCode session (.check common design) = ExitCode.success ↔
      exitCode session (.place common (.asConfigured design output form)) ∈
        [ExitCode.success, ExitCode.infeasible, ExitCode.crash]) ∧
    (exitCode session (.place common (.asConfigured design output form)) = ExitCode.crash ↔
      ∃ config problem, Loads session common design config problem ∧ ¬ Search.HasRoom config) ∧
    (exitCode session (.check common design) = ExitCode.success →
      ∃ config problem, Loads session common design config problem ∧
        (problem.IsAddressable → Search.IsInRange Generator problem config)) := by
  rcases loads_or_fails session common design output form with
    ⟨config, problem, loads⟩ | ⟨checkFails, placeFails, unloaded⟩
  · obtain ⟨_, checked⟩ := loads.ensures_check.settles
    have placed := loads.exitCode_place form writable
    refine ⟨iff_of_true checked ?_, ?_, fun _ => ⟨config, problem, loads, loads.isInRange⟩⟩
    · split at placed
      next => rcases placed with placed | placed <;> simp [placed]
      next => simp [placed]
    · split at placed
      next room =>
        have ends : exitCode session (.place common (.asConfigured design output form)) ≠
            ExitCode.crash := by
          rcases placed with placed | placed
          all_goals
            rw [placed]
            decide
        refine iff_of_false ends ?_
        intro ⟨other, _, again, crowded⟩
        exact crowded (loads.config_unique again ▸ room)
      next crowded => exact iff_of_true placed ⟨config, problem, loads, crowded⟩
  · rw [checkFails, placeFails]
    have fails : ¬ ExitCode.failure = ExitCode.success := by decide
    refine ⟨iff_of_false fails (by decide), iff_of_false (by decide) ?_,
      fun succeeds => absurd succeeds fails⟩
    intro ⟨config, problem, loads, _⟩
    exact unloaded config problem loads

def single : String :=
  "\x7b\"outline\": \x7b\"width\": 10, \"height\": 10\x7d, \"blocks\": [" ++
    "\x7b\"name\": \"rom\", \"num_macro\": 1, \"shapes\": [[2, 3]]\x7d]\x7d"

theorem check_iff_place_or_crash_single :
    let session : Session := ⟨.ofFiles [("chip.json", .file single.toUTF8)], false, "", ""⟩
    let common : Common := ⟨true, false, .auto, none⟩
    (∀ path ∈ some "plan.json", ∃ target, session.workspace.target path = .ok target) ∧
      exitCode session (.check common "chip.json") = ExitCode.success ∧
      exitCode session (.place common (.asConfigured "chip.json" (some "plan.json") .json)) ∈
        [ExitCode.success, ExitCode.infeasible, ExitCode.crash] := by
  intro session common
  have writable : ∀ path ∈ some "plan.json", ∃ target,
      session.workspace.target path = .ok target := by
    rintro _ ⟨⟩
    exact ⟨.file ["plan.json"], by decide +kernel⟩
  have succeeds : exitCode session (.check common "chip.json") = ExitCode.success := by
    decide +kernel
  exact ⟨writable, succeeds, (check_iff_place_or_crash writable).1.mp succeeds⟩

/-- A configuration that the check accepts, of no levels and of too many workers to list. -/
theorem check_succeeds_place_crashes :
    let config := "[parallel]\nnum_level = 0\nnum_worker = 2305843009213693952\n"
    let session : Session :=
      ⟨.ofFiles [("chip.json", .file single.toUTF8), ("acre.toml", .file config.toUTF8)], false, "", ""⟩
    let common : Common := ⟨false, false, .auto, none⟩
    exitCode session (.check common "chip.json") = ExitCode.success ∧
      exitCode session (.place common (.asConfigured "chip.json" none .text)) = ExitCode.crash := by
  decide +kernel

end Command

end Floorplanner
