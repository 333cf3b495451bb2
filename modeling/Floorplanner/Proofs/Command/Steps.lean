import Mathlib
import Floorplanner.Command.Execution
import Floorplanner.Command.Workspace
import Floorplanner.Proofs.Config.Validation

/-!
The steps of a command in a session.

A step ends with a value or a failure, and leaves a session behind. Steps that look for something
leave the session as it is, whether they find it or not. Steps that say something succeed, and leave
the files as they are.
-/

namespace Floorplanner

namespace Command

open Workspace

variable {β γ : Type} {session : Session}

def Step.outcome (step : Step (StateM Session) β) (session : Session) :
    Except Failure β × Session :=
  step.run.run session

theorem outcome_bind (step : Step (StateM Session) β) (next : β → Step (StateM Session) γ)
    (session : Session) :
    Step.outcome (step >>= next) session =
      match Step.outcome step session with
      | (.ok value, session) => Step.outcome (next value) session
      | (.error failure, session) => (.error failure, session) := by
  change ExceptT.bindCont next (Step.outcome step session).1 (Step.outcome step session).2 = _
  rcases Step.outcome step session with ⟨_ | _, _⟩
  · rfl
  · rfl

theorem outcome_lift (action : StateM Session β) (session : Session) :
    Step.outcome (ExceptT.lift action) session =
      (.ok (action.run session).1, (action.run session).2) := rfl

theorem outcome_ofExcept {ε : Type} (failure : ε → Failure) (result : Except ε β)
    (session : Session) :
    Step.outcome (Step.ofExcept failure result) session = (result.mapError failure, session) := by
  cases result <;> rfl

/-- A step that leaves every session as it is, and what holds of what it finds. -/
def Step.Finds (step : Step (StateM Session) β) (holds : β → Prop) : Prop :=
  ∀ session, ∃ result, step.outcome session = (result, session) ∧
    ∀ value, result = .ok value → holds value

section Finds

theorem Step.Finds.bind {step : Step (StateM Session) β} {next : β → Step (StateM Session) γ}
    {first : β → Prop} {last : γ → Prop} (finds : Step.Finds step first)
    (goesOn : ∀ value, first value → Step.Finds (next value) last) :
    Step.Finds (step >>= next) last := by
  intro session
  obtain ⟨result, outcome, holds⟩ := finds session
  rw [outcome_bind, outcome]
  cases result with
  | error failure => exact ⟨.error failure, rfl, nofun⟩
  | ok value => exact goesOn value (holds value rfl) session

theorem finds_ofExcept {ε : Type} {failure : ε → Failure} {result : Except ε β} {holds : β → Prop}
    (found : ∀ value, result = .ok value → holds value) :
    Step.Finds (Step.ofExcept failure result) holds := by
  intro session
  refine ⟨_, outcome_ofExcept failure result session, ?_⟩
  cases result with
  | error error => exact nofun
  | ok value =>
      rintro _ ⟨⟩
      exact found value rfl

theorem finds_readFile (path : String) : Step.Finds (Step.readFile path) fun _ => True := by
  intro session
  have outcome := outcome_ofExcept (fun cause => .input (.unreadable cause))
    (session.workspace.read path) session
  exact ⟨_, outcome, fun _ _ => trivial⟩

theorem finds_configPath (common : Common) (design : String) :
    Step.Finds (ExceptT.lift (configPath? common design)) fun _ => True := by
  intro session
  have still : ((configPath? common design : StateM Session _).run session).2 = session := by
    rw [configPath?]
    cases common.config with
    | none => rfl
    | some path => rfl
  rw [outcome_lift, still]
  exact ⟨_, rfl, fun _ _ => trivial⟩

theorem finds_loadConfig (common : Common) (design : String) :
    Step.Finds (loadConfig common design) fun config => config.check = .ok () := by
  apply (finds_configPath common design).bind
  intro path _
  cases path with
  | none =>
      -- Nobody checks the default configuration, but it would pass.
      intro session
      refine ⟨.ok .default, rfl, ?_⟩
      rintro _ ⟨⟩
      rfl
  | some path =>
      apply (finds_readFile path).bind
      intro text _
      exact finds_ofExcept fun config => Config.check_of_read

theorem finds_loadProblem (path : String) :
    Step.Finds (loadProblem path) fun problem =>
      ∃ design : Design Float, design.resolve = .ok problem := by
  apply (finds_readFile path).bind
  intro text _
  have read : Step.Finds (Step.ofExcept .input (Design.read (Design.Format.ofPath path) text))
      fun _ => True := finds_ofExcept fun _ _ => trivial
  apply read.bind
  intro design _
  exact finds_ofExcept fun problem resolved => ⟨design, resolved⟩

end Finds

/-- A step that succeeds in a session, and what holds of its value and of the session after it. -/
def Step.Ensures (step : Step (StateM Session) β) (session : Session)
    (holds : β → Session → Prop) : Prop :=
  ∃ value next, step.outcome session = (.ok value, next) ∧ holds value next

section Ensures

theorem Step.Ensures.bind {step : Step (StateM Session) β} {next : β → Step (StateM Session) γ}
    {first : β → Session → Prop} {last : γ → Session → Prop}
    (ensures : Step.Ensures step session first)
    (goesOn : ∀ value session, first value session → Step.Ensures (next value) session last) :
    Step.Ensures (step >>= next) session last := by
  obtain ⟨value, session, outcome, holds⟩ := ensures
  obtain ⟨last, final, outcomes, ends⟩ := goesOn value session holds
  refine ⟨last, final, ?_, ends⟩
  rw [outcome_bind, outcome]
  exact outcomes

theorem ensures_of_outcome {step : Step (StateM Session) β} {value : β} {next : Session}
    (outcome : Step.outcome step session = (.ok value, next)) :
    Step.Ensures step session fun result last => result = value ∧ last = next :=
  ⟨value, next, outcome, rfl, rfl⟩

theorem ensures_ofExcept {ε : Type} {failure : ε → Failure} {result : Except ε β} {value : β}
    (found : result = .ok value) :
    Step.Ensures (Step.ofExcept failure result) session
      fun outcome next => outcome = value ∧ next = session := by
  apply ensures_of_outcome
  rw [found]
  rfl

theorem ensures_say (common : Common) (line : String) :
    Step.Ensures (Step.say common line) session
      fun _ next => next.workspace = session.workspace := by
  rw [Step.say]
  cases common.quiet with
  | true => exact ⟨(), session, rfl, rfl⟩
  | false => exact ⟨(), _, rfl, rfl⟩

theorem ensures_showDiagnostics (common : Common) (diagnostics : List Diagnostic) :
    Step.Ensures (ExceptT.lift (showDiagnostics common diagnostics)) session
      fun _ next => next.workspace = session.workspace := by
  let shown := diagnostics.filter fun diagnostic => isShown common diagnostic.severity
  let color := common.coloring.isOn session.hasTerminal
  have loop (shown : List Diagnostic) (session : Session) :
      ((forIn shown PUnit.unit fun (diagnostic : Diagnostic) _ => (do
        Host.report (diagnostic.render color ++ "\n")
        return .yield PUnit.unit : StateM Session _)).run session).2.workspace =
      session.workspace := by
    induction shown generalizing session with
    | nil => rfl
    | cons first rest induction =>
        rw [List.forIn_cons]
        exact induction _
  exact ⟨_, _, outcome_lift _ session, loop shown session⟩

theorem ensures_emitReport (common : Common) {placement : Placement} (plan : Plan Float)
    (writable : ∀ path ∈ placement.output, ∃ target, session.workspace.target path = .ok target) :
    Step.Ensures (emitReport common placement plan) session fun _ _ => True := by
  rw [emitReport]
  cases output : placement.output with
  | none =>
      cases placement.form with
      | text => exact ⟨_, _, rfl, trivial⟩
      | json => exact ⟨_, _, rfl, trivial⟩
  | some path =>
      obtain ⟨target, leads⟩ := writable path output
      have writes : Step.Ensures (ExceptT.lift (Host.write path plan.toJson.pretty)) session
          fun result _ => result = .ok () := by
        refine ⟨.ok (), session.write plan.toJson.pretty target, ?_, rfl⟩
        have written : (Host.write path plan.toJson.pretty : StateM Session _).run session =
            (.ok (), session.write plan.toJson.pretty target) := by
          simp [Host.write, leads]
          rfl
        rw [outcome_lift, written]
      apply writes.bind
      rintro _ _ rfl
      apply (ensures_ofExcept rfl).bind
      rintro _ _ ⟨rfl, rfl⟩
      obtain ⟨_, _, said, _⟩ := ensures_say common ("   Wrote " ++ path)
      exact ⟨_, _, said, trivial⟩

end Ensures

def Step.Fails (step : Step (StateM Session) β) (session : Session) : Prop :=
  ∃ failure next, step.outcome session = (.error failure, next)

section Fails

theorem Step.Fails.bind {step : Step (StateM Session) β} (fails : Step.Fails step session)
    (next : β → Step (StateM Session) γ) : Step.Fails (step >>= next) session := by
  obtain ⟨failure, last, outcome⟩ := fails
  refine ⟨failure, last, ?_⟩
  rw [outcome_bind, outcome]

theorem Step.Ensures.bind_fails {step : Step (StateM Session) β}
    {next : β → Step (StateM Session) γ} {first : β → Session → Prop}
    (ensures : Step.Ensures step session first)
    (goesOn : ∀ value session, first value session → Step.Fails (next value) session) :
    Step.Fails (step >>= next) session := by
  obtain ⟨value, session, outcome, holds⟩ := ensures
  obtain ⟨failure, last, fails⟩ := goesOn value session holds
  refine ⟨failure, last, ?_⟩
  rw [outcome_bind, outcome]
  exact fails

end Fails

def exitCode (session : Session) (request : Request) : UInt32 :=
  ((execute request : StateM Session UInt32).run session).1

section ExitCode

variable {step : Step (StateM Session) UInt32}

theorem settle_run (step : Step (StateM Session) UInt32) (session : Session) :
    (settle step).run session =
      (match (Step.outcome step session).1 with
        | .ok code => (pure code : StateM Session UInt32)
        | .error failure => do
            Host.report ("error: " ++ failure.message ++ "\n")
            return ExitCode.failure).run (Step.outcome step session).2 := rfl

theorem Step.Ensures.settles {holds : UInt32 → Session → Prop}
    (ensures : Step.Ensures step session holds) :
    ∃ next, holds ((settle step).run session).1 next := by
  obtain ⟨code, next, outcome, ends⟩ := ensures
  refine ⟨next, ?_⟩
  rw [settle_run, outcome]
  exact ends

theorem Step.Fails.settles (fails : Step.Fails step session) :
    ((settle step).run session).1 = ExitCode.failure := by
  obtain ⟨failure, next, outcome⟩ := fails
  rw [settle_run, outcome]
  rfl

end ExitCode

end Command

end Floorplanner
