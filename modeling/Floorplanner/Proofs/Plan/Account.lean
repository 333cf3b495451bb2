import Mathlib
import Floorplanner.Proofs.Cost.Terms
import Floorplanner.Proofs.Diagnostic.Journal
import Floorplanner.Proofs.Packing.BoundingSize
import Floorplanner.Proofs.Plan.Overlap
import Floorplanner.Proofs.Search.Levels
import Floorplanner.Proofs.Search.Success

/-!
What a run reports, and what its plan says of itself.

A run that comes to a plan has reported its start, the sampling, every level and the end, and a
warning if the plan does not fit. The size of a plan, its fit and its cost are those of its blocks
and terms, after alignment has moved them.
-/

namespace Floorplanner

section Size

variable {α : Type} [ExactNumber α]

namespace Plan

/-- The size of a layout is where the last of its blocks ends; nothing ends before the origin. -/
theorem isGreatest_boundingSize (blocks : List (Block α)) (axis : Axis) :
    IsGreatest (insert 0 {reach | ∃ block ∈ blocks, (block.footprint.span axis).high = reach})
      ((boundingSize blocks).along axis) := by
  induction blocks using List.reverseRecOn with
  | nil => cases axis <;> simp [boundingSize, Size.zero, Size.along]
  | append_singleton blocks block induction =>
      change IsGreatest (insert 0 (Block.ends (blocks ++ [block]) axis)) _
      rw [Block.ends_concat, Set.insert_comm, along_boundingSize_concat, max_comm]
      exact induction.insert _

end Plan

end Size

namespace Search

variable {α σ : Type} [Number α] [SeededSource σ] [IndexSource σ] [FractionSource σ α]
  {problem : Problem α} {config : Config α} {seeds : List UInt64} {norms : Terms α}
  {left level : Nat} {heat : Heat α} {best last : Outcome α} {summaries : List (LevelSummary α)}

/-- Levels are numbered in their order, and each is summed up by an outcome at its cost. -/
theorem summaries_of_levelsFrom
    (went : levelsFrom σ problem config seeds norms left level heat best = .ok (last, summaries)) :
    summaries.map (·.level) = List.range' level left ∧
      ∀ summary ∈ summaries, ∃ winner, winner.cost = winner.terms.cost norms config.weights ∧
        summary = summarize norms summary.level winner := by
  induction left generalizing level heat best summaries with
  | zero =>
      cases went
      exact ⟨rfl, nofun⟩
  | succ left induction =>
      obtain ⟨winner, rest, wins, goesOn, rfl⟩ := levelsFrom_succ_eq_ok_iff.mp went
      obtain ⟨coolingRate, seed, worker⟩ := exists_anneal_of_cheapest? σ problem _ _ wins
      obtain ⟨numbered, measured⟩ := induction goesOn
      constructor
      · rw [List.map_cons, numbered]
        rfl
      · rw [List.forall_mem_cons]
        refine ⟨⟨winner, ?_, rfl⟩, measured⟩
        rw [worker]
        rfl

end Search

def Progress.verdict (feasible : Bool) : Severity := if feasible then .note else .warning

namespace Journal

structure Tells (journal : Journal) (levels : Nat) (feasible : Bool) : Prop where
  codes : journal.entries.map (·.code.text) =
    ["I001", "I002"] ++ (List.range levels).map (fun level => "I" ++ toString (100 + min level 899)) ++
      ["I003"] ++ if feasible then [] else ["W001"]
  worst : journal.worst = some (Progress.verdict feasible)
  count : ∀ severity, journal.count severity = journal.entries.countP (·.severity = severity)

end Journal

section Reported

variable {α σ : Type} [Number α] [NumberText α] [SeededSource σ] [IndexSource σ]
  [FractionSource σ α] {problem : Problem α} {config : Config α}

theorem journal_floorplan {winner : Outcome α} {summaries : List (LevelSummary α)}
    (nonempty : problem.blocks ≠ []) (room : Search.HasRoom config)
    (went : Search.levels σ problem config (Search.seeds σ config)
      (Search.sampled σ problem config).1 (Search.sampled σ problem config).2 =
        .ok (winner, summaries)) (journal : Journal) :
    (floorplan σ problem config journal).journal =
      (journal.emitAll [Progress.started problem config,
        Progress.sampled config (Search.sampled σ problem config).2]).emitAll
          (summaries.map Progress.levelFinished ++ Progress.finished
            (Plan.finish problem config winner (Search.sampled σ problem config).2 summaries)) := by
  rw [Search.sampled] at went
  rw [floorplan_of_hasRoom nonempty room]
  dsimp only
  rw [went]
  rfl

end Reported

namespace Progress

variable {α : Type} [NumberText α]

open Diagnostic

theorem codes_finished (plan : Plan α) :
    (finished plan).map (·.code.text) = ["I003"] ++ if plan.feasible then [] else ["W001"] := by
  rw [finished]
  cases plan.feasible with
  | true => simp [note, Code.text_named]
  | false => simp [note, Code.text_named]

theorem worst_finished (plan : Plan α) :
    (∃ entry ∈ finished plan, entry.severity = verdict plan.feasible) ∧
      ∀ entry ∈ finished plan, entry.severity.rank ≤ (verdict plan.feasible).rank := by
  rw [finished]
  cases plan.feasible with
  | true => simp [verdict, note]
  | false => simp [verdict, note, Severity.rank]

theorem rank_note_le_verdict (feasible : Bool) : Severity.note.rank ≤ (verdict feasible).rank := by
  cases feasible <;> decide

variable (problem : Problem α) (config : Config α) (calibration : Calibration α) (plan : Plan α)
  {summaries : List (LevelSummary α)} {count : Nat}

theorem tells_emitAll (levels : summaries.map (·.level) = List.range count) :
    ((Journal.empty.emitAll [started problem config, sampled config calibration]).emitAll
      (summaries.map levelFinished ++ finished plan)).Tells count plan.feasible := by
  let first := [started problem config, sampled config calibration]
  let last := summaries.map levelFinished ++ finished plan
  have tallied := (Journal.isTallied_empty.emitAll first).emitAll last
  have entries : ((Journal.empty.emitAll first).emitAll last).entries = first ++ last := by
    rw [Journal.entries_emitAll, Journal.entries_emitAll]
    rfl
  refine ⟨?_, tallied.worst_eq_some_iff.mpr ?_, tallied⟩
  · have codes : (summaries.map levelFinished).map (·.code.text) =
        (List.range count).map fun level => "I" ++ toString (100 + min level 899) := by
      rw [← levels, List.map_map, List.map_map]
      exact List.map_congr_left fun summary _ => Code.text_level summary.level
    rw [entries, List.map_append, List.map_append, codes, codes_finished, ← List.append_assoc]
    simp [first, started, sampled, note, Code.text_named]
  · rw [entries]
    obtain ⟨⟨entry, member, severity⟩, worst⟩ := worst_finished plan
    refine ⟨⟨entry, List.mem_append_right _ (List.mem_append_right _ member), severity⟩, ?_⟩
    have notes : ∀ entry ∈ first ++ summaries.map levelFinished, entry.severity = .note := by
      simp [first, started, sampled, levelFinished, note]
    rw [← List.append_assoc, List.forall_mem_append]
    refine ⟨?_, worst⟩
    intro entry member
    rw [notes entry member]
    exact rank_note_le_verdict plan.feasible

end Progress

section Measures

theorem Problem.fits_iff {α : Type} [Number α] {problem : Problem α} {size : Size α} :
    problem.fits size = true ↔
      ∀ axis, size.along axis ≤ problem.outline.along axis * Number.ratio 1001 1000 := by
  rw [fits, Bool.and_eq_true, decide_eq_true_iff, decide_eq_true_iff]
  constructor
  · rintro ⟨width, height⟩ (_ | _)
    · exact width
    · exact height
  · exact fun within => ⟨within .x, within .y⟩

variable {α : Type} [ExactNumber α]

namespace Plan

/-- The size of a plan is that of the box from the origin around its blocks. By it the plan fits. -/
structure IsMeasured (plan : Plan α) (outline : Size α) (norms weights : Terms α) : Prop where
  size : ∀ axis,
    IsGreatest (insert 0 {reach | ∃ block ∈ plan.blocks, (block.footprint.span axis).high = reach})
      (plan.size.along axis)
  feasible : plan.feasible = true ↔
    ∀ axis, plan.size.along axis ≤ outline.along axis * ((1001 : Nat) / (1000 : Nat))
  cost : Terms.AddUp norms weights plan.terms plan.normalized plan.cost
  levels : ∀ summary ∈ plan.levels,
    Terms.AddUp norms weights summary.terms summary.normalized summary.cost

theorem isMeasured_finish {problem : Problem α} {config : Config α} {winner : Outcome α}
    {calibration : Calibration α} {summaries : List (LevelSummary α)}
    (levels : ∀ summary ∈ summaries, Terms.AddUp calibration.norms config.weights summary.terms
      summary.normalized summary.cost) :
    (finish problem config winner calibration summaries).IsMeasured problem.outline
      calibration.norms config.weights where
  size axis := by
    have placed (block : Block α) : (PlacedBlock.ofBlock block).footprint = block.footprint := rfl
    simpa [finish, placed] using isGreatest_boundingSize _ axis
  feasible := Problem.fits_iff
  cost := ⟨rfl, Terms.cost_eq_weighted _ _ _⟩
  levels := levels

end Plan

end Measures

/--
A run that comes to a plan tells its levels in order, and in the end whether the plan fits. With
exact numbers, the plan and the levels say of themselves what they are. Without blocks nothing is
told.
-/
theorem floorplan_accounts :
    (∀ {α σ : Type} [Number α] [NumberText α] [SeededSource σ] [IndexSource σ]
        [FractionSource σ α] (problem : Problem α) (config : Config α),
      (problem.blocks = [] → (floorplan σ problem config .empty).journal = .empty) ∧
        ∀ plan, (floorplan σ problem config .empty).result = .ok plan →
          plan.levels.map (·.level) = List.range config.parallel.levels ∧
            (floorplan σ problem config .empty).journal.Tells config.parallel.levels
              plan.feasible) ∧
    ∀ {α σ : Type} [ExactNumber α] [NumberText α] [SeededSource σ] [IndexSource σ]
        [FractionSource σ α] (problem : Problem α) (config : Config α) (plan : Plan α),
      (floorplan σ problem config .empty).result = .ok plan →
        plan.IsMeasured problem.outline (Search.sampled σ problem config).2.norms
          config.weights := by
  constructor
  · intro α σ _ _ _ _ _ problem config
    constructor
    · intro none
      rw [floorplan, none]
      rfl
    · intro plan planned
      obtain ⟨nonempty, room, winner, summaries, went, rfl⟩ := levels_of_result_floorplan planned
      have levels : summaries.map (·.level) = List.range config.parallel.levels := by
        rw [List.range_eq_range']
        exact (Search.summaries_of_levelsFrom went).1
      refine ⟨levels, ?_⟩
      rw [journal_floorplan nonempty room went]
      exact Progress.tells_emitAll problem config _ _ levels
  · intro α σ _ _ _ _ _ problem config plan planned
    obtain ⟨_, _, winner, summaries, went, rfl⟩ := levels_of_result_floorplan planned
    apply Plan.isMeasured_finish
    intro summary member
    obtain ⟨winner, costs, summed⟩ := (Search.summaries_of_levelsFrom went).2 summary member
    rw [summed]
    exact ⟨rfl, costs.trans (Terms.cost_eq_weighted _ _ _)⟩

theorem floorplan_accounts_single :
    let _ : NumberText ℝ :=
      ⟨fun a => toString ⌊a⌋, fun _ a => toString ⌊a⌋, fun a => some (toString ⌊a⌋)⟩
    let config : Config ℝ := .default
    let problem : Problem ℝ :=
      { Problem.ofOutline ⟨10, 10⟩ with blocks := [.hard "rom" 6 1 [⟨2, 3⟩, ⟨3, 2⟩]] }
    let run := floorplan Generator problem config .empty
    (floorplan Generator (Problem.ofOutline ⟨10, 10⟩) config .empty).journal = .empty ∧
      ∃ plan, run.result = .ok plan ∧ plan.levels.map (·.level) = [0, 1, 2, 3] ∧
        run.journal.Tells 4 plan.feasible ∧
        plan.IsMeasured ⟨10, 10⟩ (Search.sampled Generator problem config).2.norms
          config.weights := by
  intro _ config problem run
  have workers : 0 < config.parallel.workers := Nat.succ_pos 3
  have nonempty : problem.blocks ≠ [] := List.cons_ne_nil _ _
  obtain ⟨plan, planned, _⟩ := exists_plan (σ := Generator) nonempty workers (by decide) .empty
  refine ⟨(floorplan_accounts.1 (Problem.ofOutline ⟨10, 10⟩) config).1 rfl, plan, planned, ?_⟩
  obtain ⟨levels, tells⟩ := (floorplan_accounts.1 problem config).2 plan planned
  exact ⟨levels, tells, floorplan_accounts.2 problem config plan planned⟩

end Floorplanner
