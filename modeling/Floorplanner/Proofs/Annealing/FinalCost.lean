import Mathlib
import Floorplanner.Proofs.Annealing.BestLayout
import Floorplanner.Proofs.Config.Validation
import Floorplanner.Proofs.Design.Consistency

/-!
How the cost at the end of a run compares to the one at its start.

A run leaves the cheapest layout since its last reset. Without a reset in between, that is at most
the cost at the start. But a shrink puts a layout in the place of the best one whatever it costs, and
smaller blocks may lie further from where they should be, so a run can end worse than it started.
-/

namespace Floorplanner

namespace Annealer

section Reset

variable {α σ : Type} [Number α] [IndexSource σ] [FractionSource σ α] (annealer : Annealer α σ)

def lastShrink? : Option (Iteration α σ) := (annealer.log.filter annealer.shrinksIn).getLast?

def lastReset : Snapshot α :=
  annealer.lastShrink?.elim annealer.start.current fun iteration =>
    (annealer.after iteration).current

variable {annealer}

theorem mem_keep_of_mem {states : List (Snapshot α)} {iteration : Iteration α σ}
    {state : Snapshot α} (keeps : annealer.shrinksIn iteration = false) (member : state ∈ states) :
    state ∈ annealer.keep states iteration := by
  cases accepts : annealer.acceptsIn iteration with
  | true =>
      rw [keep_of_accepts keeps accepts]
      exact List.mem_append_left _ member
  | false => rwa [keep_of_rejects keeps accepts]

theorem reset_mem_foldl_keep (start : Snapshot α) (log : List (Iteration α σ)) :
    ((log.filter annealer.shrinksIn).getLast?.elim start fun iteration =>
      (annealer.after iteration).current) ∈ log.foldl annealer.keep [start] := by
  -- The last iteration decides, so the log is taken apart at its end.
  induction log using List.reverseRecOn with
  | nil => exact List.mem_singleton_self start
  | append_singleton log iteration induction =>
      rw [List.foldl_concat, List.filter_append]
      cases shrinks : annealer.shrinksIn iteration with
      | true => simp [keep_of_shrinks, shrinks]
      | false =>
          apply mem_keep_of_mem shrinks
          simpa [shrinks] using induction

theorem lastReset_mem_sinceReset : annealer.lastReset ∈ annealer.sinceReset :=
  reset_mem_foldl_keep _ _

theorem cost_kept (coherent : annealer.IsCoherent) : annealer.kept.cost = annealer.run.2.cost := by
  obtain ⟨_, finish⟩ := coherent.walks
  have kept : annealer.kept.IsCoherent annealer := by
    rw [Annealer.kept]
    split
    · exact finish.best
    · exact finish.current
  exact kept.cost

theorem isCoherent_reached (problem : Problem α) (config : Config α) (coolingRate : α) (source : σ)
    (operations : List (Operation α)) :
    (reached problem config coolingRate source operations).IsCoherent :=
  (isCoherent_new problem config coolingRate source).performAll operations

end Reset

section Settled

variable {α σ : Type} [Number α] [IndexSource σ] [FractionSource σ α] {annealer : Annealer α σ}

theorem propose_of_perturb {layout : Layout α} {source next : σ} {move : Move α}
    {arrangement : Arrangement α}
    (moved : Move.perturb annealer.problem.outline (.ofProbabilities annealer.config.moves)
      layout.arrangement source = ((move, arrangement), next)) :
    annealer.propose layout source = ((move, annealer.settle arrangement), next) := by
  rw [propose, moved]

def IsSettled (annealer : Annealer α σ) (walk : Walk α σ) : Prop :=
  ∀ step temperature, annealer.iterate step temperature walk = walk

namespace IsSettled

variable {walk : Walk α σ} (settled : annealer.IsSettled walk)
include settled

theorem iterations (step : Nat) (temperature : α) (count : Nat) :
    annealer.iterations step temperature count walk = walk := by
  induction count with
  | zero => rfl
  | succ count induction => rw [Annealer.iterations, settled, induction]

theorem schedule (left step : Nat) (temperature : α) :
    annealer.schedule left step temperature walk = walk := by
  induction left generalizing step temperature with
  | zero => rfl
  | succ left induction => rw [Annealer.schedule, settled.iterations, induction]

/-- Once a schedule comes to a settled walk, restarts do not lead away from it. -/
theorem schedules {first : Walk α σ} (restarts : Nat)
    (comes : annealer.schedule annealer.config.annealing.steps 1
      annealer.calibration.temperature first = walk) :
    (annealer.schedules restarts first).2 = walk := by
  induction restarts generalizing first with
  | zero =>
      rw [Annealer.schedules, comes]
      simp
  | succ restarts induction =>
      rw [Annealer.schedules, comes]
      dsimp only
      split
      · rfl
      · exact induction (settled.schedule _ _ _)

end IsSettled

end Settled

end Annealer

namespace WordScript

def exhausted : WordScript := ⟨[]⟩

theorem spread_exhausted (width bound limit : Nat) :
    WordSource.spread width bound WordSource.word64 limit exhausted = (0, exhausted) := by
  cases limit with
  | zero => simp [WordSource.spread, WordSource.word64, WordSource.next64, next64, exhausted]
  | succ limit => simp [WordSource.spread, WordSource.word64, WordSource.next64, next64, exhausted]

@[simp] theorem index_exhausted (bound : Nat) :
    IndexSource.index bound exhausted = (0, exhausted) :=
  spread_exhausted 64 bound _

@[simp] theorem fraction_exhausted {α : Type} [ExactNumber α] :
    (FractionSource.fraction exhausted : α × WordScript) = (0, exhausted) := by
  simp [FractionSource.fraction, WordSource.word64, WordSource.next64, next64, exhausted,
    Number.ratio]

end WordScript

open WordScript

def SequencePair.stack : SequencePair := ⟨[⟨1⟩, ⟨0⟩], [⟨0⟩, ⟨1⟩]⟩

section Two

variable {α : Type} [ExactNumber α] {first second : Block α}

open Packing in
theorem pack_identity_two (width : 0 < first.width ∧ 0 < second.width)
    (height : 0 < first.height ∧ 0 < second.height) :
    pack [first, second] (.identity 2) =
      ([first.moveTo 0 0, second.moveTo first.width 0],
        ⟨first.width + second.width, max first.height second.height⟩) := by
  have row : SequencePair.identity 2 = ⟨[⟨0⟩, ⟨1⟩], [⟨0⟩, ⟨1⟩]⟩ := by decide
  have ranks : rank [⟨0⟩, ⟨1⟩] ⟨0⟩ = 0 ∧ rank [⟨0⟩, ⟨1⟩] ⟨1⟩ = 1 := by decide
  have indices : (⟨0⟩ : BlockRef).index = 0 ∧ (⟨1⟩ : BlockRef).index = 1 := by decide
  rcases lt_or_ge second.height first.height with lower | higher
  · simp [row, ranks, indices, pack, Sweep.run, Sweep.place, raiseFrom, raise, Sweep.reach,
      List.replicate, width, height, lower, lower.le]
  · simp [row, ranks, indices, pack, Sweep.run, Sweep.place, raiseFrom, raise, Sweep.reach,
      List.replicate, width, height, higher, higher.not_gt]

open Packing in
theorem pack_stack (width : 0 < first.width ∧ 0 < second.width)
    (height : 0 < first.height ∧ 0 < second.height) :
    pack [first, second] .stack =
      ([first.moveTo 0 0, second.moveTo 0 first.height],
        ⟨max first.width second.width, first.height + second.height⟩) := by
  have ranks : rank [⟨0⟩, ⟨1⟩] ⟨0⟩ = 0 ∧ rank [⟨0⟩, ⟨1⟩] ⟨1⟩ = 1 := by decide
  have indices : (⟨0⟩ : BlockRef).index = 0 ∧ (⟨1⟩ : BlockRef).index = 1 := by decide
  rcases lt_or_ge second.width first.width with lower | higher
  · simp [SequencePair.stack, ranks, indices, pack, Sweep.run, Sweep.place, raiseFrom, raise,
      Sweep.reach, List.replicate, width, height, lower, lower.le]
  · simp [SequencePair.stack, ranks, indices, pack, Sweep.run, Sweep.place, raiseFrom, raise,
      Sweep.reach, List.replicate, width, height, higher, higher.not_gt]

/-- Of two blocks, a positive swap that draws zeros exchanges the two. -/
theorem Move.perturb_of_drawKind {outline : Size α} {thresholds : Thresholds α}
    {pair : SequencePair} {source : WordScript}
    (drawn : drawKind thresholds [first, second] source = (.swap .positive, exhausted)) :
    perturb outline thresholds ⟨[first, second], pair⟩ source =
      ((positiveSwap 0 1, ⟨[first, second], pair.exchangePositive 0 1⟩), exhausted) := by
  simp [perturb, drawn, distinctPair, swap, Block.skip]

theorem Annealer.accepts_exhausted {delta : α} (notWorse : delta ≤ 0) (temperature : α) :
    accepts delta temperature exhausted = (true, exhausted) := by
  rcases notWorse.lt_or_eq with cheaper | rfl
  · simp [accepts, cheaper]
  · simp [accepts]

end Two

namespace Annealer

section Exact

variable {α σ : Type} [ExactNumber α] [IndexSource σ] [FractionSource σ α]

theorem IsCoherent.cost_run_le {annealer : Annealer α σ} (coherent : annealer.IsCoherent)
    {state : Snapshot α} (member : state ∈ annealer.sinceReset) :
    annealer.run.2.cost ≤ state.cost := by
  have ordered := areOrdered_of_exact (annealer.compared.map (·.cost))
  rw [← cost_kept coherent]
  exact not_lt.mp (not_lt_kept (coherent.keepsBest ordered) ordered member)

/--
A run ends no worse than it started, unless it last shrank the soft blocks into a layout that costs
more than the one at the start; then it ends no worse than that.
-/
theorem run_ends_no_worse (problem : Problem α) (config : Config α) (coolingRate : α) (source : σ)
    (operations : List (Operation α)) :
    let annealer := reached problem config coolingRate source operations
    annealer.run.2.cost ≤ annealer.cost ∨
      ∃ iteration ∈ annealer.lastShrink?,
        annealer.cost < (annealer.after iteration).current.cost ∧
          annealer.run.2.cost ≤ (annealer.after iteration).current.cost := by
  intro annealer
  have coherent : annealer.IsCoherent := isCoherent_reached _ _ _ _ _
  have notWorse : annealer.run.2.cost ≤ annealer.lastReset.cost :=
    coherent.cost_run_le lastReset_mem_sinceReset
  cases last : annealer.lastShrink? with
  | none =>
      left
      rwa [lastReset, last] at notWorse
  | some iteration =>
      rw [lastReset, last] at notWorse
      rcases lt_or_ge annealer.cost (annealer.after iteration).current.cost with dearer | cheaper
      · exact .inr ⟨iteration, rfl, dearer, notWorse⟩
      · exact .inl (notWorse.trans cheaper)

end Exact

noncomputable section Dearer

namespace Dearer

def rom : Block ℝ := .hard "rom" 2 1 [⟨1, 2⟩]

def core (side : ℝ) : Block ℝ := .soft "core" (side * side) [⟨1, 1⟩]

def design : Design ℝ :=
  ⟨⟨1, 1⟩, [⟨"rom", some 2, 1, [], [⟨1, 2⟩]⟩, ⟨"core", some 16, 0, [⟨1, 1⟩], []⟩], [], [], [],
    [⟨"core", ⟨10, 10, 10, 10⟩⟩]⟩

def problem : Problem ℝ :=
  { Problem.ofOutline ⟨1, 1⟩ with
    blocks := [rom, core 4]
    locations := [⟨⟨1⟩, ⟨10, 10, 10, 10⟩⟩] }

def config : Config ℝ :=
  { Config.default with
    moves := ⟨0, 1, 0, 0⟩
    annealing := ⟨19 / 20, 1, 2⟩
    shrinking := ⟨1 / 2, 1⟩ }

def source : WordScript := ⟨[2 ^ 62]⟩

def annealer : Annealer ℝ WordScript :=
  reached problem config (99 / 100) source [.calibrate ⟨⟨0, 0, 0, 0, 0, 1, 0⟩, 1⟩]

open Design.BlockDescription in
theorem resolve_design : design.resolve = .ok problem := by
  have square : (4 : ℝ) * 4 = 16 := by norm_num
  have blocks : List.Forall₂ (fun description block =>
      Design.BlockDescription.resolve description = .ok block) design.blocks [rom, core 4] := by
    refine .cons ?_ (.cons ?_ .nil)
    · norm_num [Design.BlockDescription.resolve, resolveHard, Size.isPositive, Number.isLength,
        Number.isFinite, checkArea, bind, Except.bind, pure, Except.pure, rom]
    · norm_num [Design.BlockDescription.resolve, resolveSoft, Number.isLength, Number.isFinite,
        checkArea, checkRatios, Design.isRatioRange, bind, Except.bind, pure, Except.pure, core,
        square]
  refine Design.resolve_eq_ok_iff.mpr ⟨?_, List.cons_ne_nil _ _, by decide,
    ⟨.nil, List.disjoint_nil_right _⟩, _, [], _, blocks, rfl, rfl, rfl⟩
  norm_num [design, Size.isPositive, Number.isLength, Number.isFinite]

theorem check_config : config.check = .ok () := by
  obtain ⟨weights, -, -, -, parallel, notching⟩ :=
    Config.check_eq_ok_iff.mp (@Config.check_default ℝ _)
  refine Config.check_eq_ok_iff.mpr ⟨weights, ?_, ?_, ?_, parallel, notching⟩
  · norm_num [config, Config.Moves.check, then_eq_ok_iff, Config.checkProbability,
      Config.require_eq_ok_iff, Number.ratio]
  · norm_num [config, Config.Annealing.check, then_eq_ok_iff, Config.checkOpenUnit,
      Config.checkCount, Config.require_eq_ok_iff, Number.ratio]
  · norm_num [config, Config.Shrinking.check_eq_ok_iff]

def blocksAt (side x y : ℝ) : List (Block ℝ) := [rom, (core side).moveTo x y]

def layoutAt (side x y : ℝ) (pair : SequencePair) (size : Size ℝ) : Layout ℝ where
  arrangement := ⟨blocksAt side x y, pair⟩
  size
  terms := Cost.evaluate problem config.notching (blocksAt side x y) size

def inRow (side : ℝ) : Layout ℝ := layoutAt side 1 0 (.identity 2) ⟨1 + side, max 2 side⟩

def stacked (side : ℝ) : Layout ℝ := layoutAt side 0 2 .stack ⟨max 1 side, 2 + side⟩

section Side

variable {side : ℝ} (positive : 0 < side) (x y : ℝ)
include positive

theorem core_eq :
    core side = ⟨"core", side * side, .ofRatios (side * side) [⟨1, 1⟩], side, side, 0, 0⟩ := by
  have root : Real.sqrt (side * side) = side := Real.sqrt_mul_self positive.le
  simp [core, Block.soft, Block.withRatio, Number.sqrt, ExactNumber.sqrt, root, positive.ne']

theorem withRatio_core : ((core side).moveTo x y).withRatio 1 = (core side).moveTo x y := by
  have root : Real.sqrt (side * side) = side := Real.sqrt_mul_self positive.le
  simp [core_eq positive, Block.withRatio, Block.moveTo, Number.sqrt, ExactNumber.sqrt, root,
    positive.ne']

theorem shrink_core {factor : ℝ} (shrinks : 0 < factor) :
    ((core side).moveTo x y).shrink factor = (core (side * factor)).moveTo x y := by
  rw [core_eq positive, core_eq (mul_pos positive shrinks)]
  rfl

theorem reshape_core (blocks : List (Block ℝ)) :
    Move.reshape problem.outline blocks ((core side).moveTo x y) exhausted =
      (some ((core side).moveTo x y), exhausted) := by
  have soft : ((core side).moveTo x y).isHard = false := by
    rw [core_eq positive]
    rfl
  have ratio : Move.Reshaping.ofDraw (0 : ℝ) = .ratio := by
    norm_num [Move.Reshaping.ofDraw, Number.ratio]
  have square : ((core side).moveTo x y).randomRatio exhausted =
      (((core side).moveTo x y).withRatio 1, exhausted) := by
    simp [core_eq positive, Block.randomRatio, Block.moveTo, Block.Form.ofRatios]
  simp [Move.reshape, soft, ratio, square, withRatio_core positive]

theorem settle_identity : annealer.settle ⟨blocksAt side x y, .identity 2⟩ = inRow side := by
  have packed : pack (blocksAt side x y) (.identity 2) =
      (blocksAt side 1 0, ⟨1 + side, max 2 side⟩) := by
    rw [blocksAt, pack_identity_two]
    all_goals simp [blocksAt, rom, Block.hard, Block.moveTo, core_eq positive, positive]
  rw [settle, Layout.ofArrangement, packed]
  rfl

theorem settle_stack : annealer.settle ⟨blocksAt side x y, .stack⟩ = stacked side := by
  have packed : pack (blocksAt side x y) .stack = (blocksAt side 0 2, ⟨max 1 side, 2 + side⟩) := by
    rw [blocksAt, pack_stack]
    all_goals simp [blocksAt, rom, Block.hard, Block.moveTo, core_eq positive, positive]
  rw [settle, Layout.ofArrangement, packed]
  rfl

/-- The location is far out on the diagonal, so a smaller core is further from it. -/
theorem locationPenalty_blocksAt (left : x + side ≤ 10) (below : y + side ≤ 10) :
    Cost.locationPenalty problem (blocksAt side x y) = 10 - side - max x y := by
  have across : |x + side / 2 - 10| = 10 - x - side / 2 := by
    rw [abs_of_nonpos (by linarith)]
    ring
  have upward : |y + side / 2 - 10| = 10 - y - side / 2 := by
    rw [abs_of_nonpos (by linarith)]
    ring
  calc
    Cost.locationPenalty problem (blocksAt side x y)
      = 0 + Cost.locationGap ((core side).moveTo x y) ⟨10, 10, 10, 10⟩ := rfl
    _ = min (max (10 - x - side / 2 - side / 2) 0) (max (10 - y - side / 2 - side / 2) 0) := by
        norm_num [Cost.locationGap, core_eq positive, Block.moveTo, Block.center, Rect.center,
          Rect.width, Rect.height, Number.abs, across, upward]
    _ = min (10 - side - x) (10 - side - y) := by
        rw [max_eq_left (by linarith), max_eq_left (by linarith)]
        ring_nf
    _ = 10 - side - max x y := min_sub_sub_left _ _ _

end Side

theorem costOf_eq (layout : Layout ℝ) : annealer.costOf layout = layout.terms.location / 2 := by
  norm_num [costOf, annealer, reached, perform, calibrate, new, config, Config.default,
    Config.defaultWeights, Terms.cost, Terms.zipWith, Terms.share?, Terms.toList, Number.sum,
    Number.ratio, List.filterMap]
  ring

theorem costOf_inRow : annealer.costOf (inRow 4) = 5 / 2 := by
  rw [costOf_eq]
  change Cost.locationPenalty problem (blocksAt 4 1 0) / 2 = _
  rw [locationPenalty_blocksAt (by norm_num) _ _ (by norm_num) (by norm_num)]
  norm_num

theorem costOf_stacked {side : ℝ} (positive : 0 < side) (small : side ≤ 8) :
    annealer.costOf (stacked side) = (8 - side) / 2 := by
  rw [costOf_eq]
  change Cost.locationPenalty problem (blocksAt side 0 2) / 2 = _
  rw [locationPenalty_blocksAt positive _ _ (by linarith) (by linarith)]
  norm_num
  ring

theorem shrinkSoft_stacked : annealer.shrinkSoft (stacked 4) = stacked 2 := by
  have shrunk : (blocksAt 4 0 2).map (·.shrink (1 / 2)) = blocksAt 2 0 2 := by
    rw [blocksAt, List.map_cons, List.map_singleton, shrink_core (by norm_num) _ _ (by norm_num)]
    norm_num [blocksAt, rom, Block.hard, Block.shrink]
  rw [← settle_stack (by norm_num : (0 : ℝ) < 2) 0 2, ← shrunk]
  rfl

theorem shrinksAt_stacked : annealer.shrinksAt 1 0 (stacked 4) = true := by
  have interval : shrinkInterval annealer.config = 1 := by
    norm_num [shrinkInterval, annealer, reached, perform, calibrate, new, config, Number.wholePart,
      ExactNumber.wholePart]
  have large : annealer.problem.fits (stacked 4).size = false := by
    norm_num [Problem.fits, stacked, layoutAt, Number.ratio, annealer, reached, perform, calibrate,
      new, problem, Problem.ofOutline]
  rw [shrinksAt, interval, large]
  rfl

theorem propose_inRow :
    annealer.propose (inRow 4) source = ((.positiveSwap 0 1, stacked 4), exhausted) := by
  have fraction : (FractionSource.fraction source : ℝ × WordScript) = (1 / 4, exhausted) := by
    have top : (WordSource.word64 source).1 >>> 11 = 2 ^ 51 := by decide +kernel
    have scale : 1 <<< 53 = 2 ^ 53 := Nat.one_shiftLeft 53
    change (Number.ratio ((WordSource.word64 source).1 >>> 11) (1 <<< 53), exhausted) = _
    rw [top, scale]
    norm_num [Number.ratio]
  have drawn : Move.drawKind (.ofProbabilities config.moves) (blocksAt 4 1 0) source =
      (.swap .positive, exhausted) := by
    norm_num [Move.drawKind, fraction, config, Move.Thresholds.ofProbabilities,
      Move.Thresholds.swapKind]
  have moved : Move.perturb problem.outline (.ofProbabilities config.moves)
      ⟨blocksAt 4 1 0, .identity 2⟩ source =
        ((.positiveSwap 0 1, ⟨blocksAt 4 1 0, .stack⟩), exhausted) :=
    Move.perturb_of_drawKind drawn
  rw [propose_of_perturb moved, settle_stack (by norm_num)]

theorem propose_stacked :
    annealer.propose (stacked 2) exhausted =
      ((.resize 1 ((core 2).moveTo 0 2).shape, stacked 2), exhausted) := by
  have drawn : Move.drawKind (.ofProbabilities config.moves) [rom, (core 2).moveTo 0 2] exhausted =
      (.resize 1, exhausted) := by
    have resizable : Move.resizable [rom, (core 2).moveTo 0 2] = [1] := rfl
    norm_num [Move.drawKind, config, Move.Thresholds.ofProbabilities, resizable]
  have moved : Move.perturb problem.outline (.ofProbabilities config.moves)
      ⟨[rom, (core 2).moveTo 0 2], .stack⟩ exhausted =
        ((.resize 1 ((core 2).moveTo 0 2).shape, ⟨[rom, (core 2).moveTo 0 2], .stack⟩),
          exhausted) := by
    simp [Move.perturb, drawn, Move.resizeAt, reshape_core]
  rw [propose_of_perturb moved, ← settle_stack (by norm_num : (0 : ℝ) < 2) 0 2]
  rfl

def first : Walk ℝ WordScript :=
  ⟨annealer.snapshot (inRow 4), annealer.snapshot (inRow 4), 0, source⟩

def last : Walk ℝ WordScript :=
  ⟨annealer.snapshot (stacked 2), annealer.snapshot (stacked 2), 1, exhausted⟩

theorem start_eq : annealer.start = first := by
  have layout : annealer.layout = inRow 4 := settle_identity (by norm_num) 0 0
  rw [start, cost, layout]
  rfl

theorem iterate_first (temperature : ℝ) : annealer.iterate 1 temperature first = last := by
  have better : annealer.costOf (stacked 4) < annealer.costOf (inRow 4) := by
    rw [costOf_inRow, costOf_stacked (by norm_num) (by norm_num)]
    norm_num
  have accepted := accepts_exhausted (sub_neg.mpr better).le temperature
  simp [iterate, first, snapshot, propose_inRow, accepted, accept, better, shrinksAt_stacked,
    shrinkSoft_stacked, last]

theorem isSettled_last : annealer.IsSettled last := by
  intro step temperature
  simp [iterate, last, snapshot, propose_stacked, accepts_exhausted, accept]

theorem finish_eq : annealer.finish = last := by
  apply isSettled_last.schedules
  change annealer.iterate 1 _ (annealer.iterate 1 _ annealer.start) = _
  rw [start_eq, iterate_first, isSettled_last]

/-- The run shrinks a core away from its location, and ends worse than it started. -/
theorem run_ends_worse :
    design.resolve = .ok problem ∧ config.check = .ok () ∧
      annealer.layout.arrangement.pair.isValid problem.blocks.length = true ∧
      annealer.cost < annealer.run.2.cost := by
  refine ⟨resolve_design, check_config, by decide, ?_⟩
  have before : annealer.cost = 5 / 2 :=
    calc
      annealer.cost = annealer.costOf (inRow 4) := congrArg (·.current.cost) start_eq
      _ = 5 / 2 := costOf_inRow
  have layout : annealer.run.2.layout = stacked 2 := by
    rw [layout_run, finish_eq]
    split <;> rfl
  have after : annealer.run.2.cost = 3 :=
    calc
      annealer.run.2.cost = annealer.costOf (stacked 2) := congrArg annealer.costOf layout
      _ = (8 - 2) / 2 := costOf_stacked (by norm_num) (by norm_num)
      _ = 3 := by norm_num
  rw [before, after]
  norm_num

end Dearer

end Dearer

end Annealer

end Floorplanner
