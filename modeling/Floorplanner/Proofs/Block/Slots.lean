import Floorplanner.Proofs.Move.Undo
import Floorplanner.Proofs.Pointwise
import Floorplanner.Proofs.Random.Draws
import Floorplanner.Proofs.Random.Skipping

/-!
The options and ranges of a block.

A hard block stands at one of its options, and a soft one has a range to take its shape from. No
change of a block gives it another name, kind or set of options or ranges, so what is drawn from
them is always there.
-/

namespace Floorplanner

namespace Block

variable {α σ : Type}

/-- The option of a hard block is one of its options; a soft block has a range and its limits. -/
def Form.HasSlots : Form α → Prop
  | .soft ratios widths heights =>
      ratios ≠ [] ∧ widths.length = ratios.length ∧ heights.length = ratios.length
  | .hard _ options current => current < options.length

structure Keeps (block next : Block α) : Prop where
  name : next.name = block.name
  isHard : next.isHard = block.isHard
  slots : block.form.HasSlots → next.form.HasSlots

namespace Keeps

variable {block next last : Block α}

theorem refl (block : Block α) : block.Keeps block := ⟨rfl, rfl, id⟩

theorem trans (first : block.Keeps next) (second : next.Keeps last) : block.Keeps last where
  name := second.name.trans first.name
  isHard := second.isHard.trans first.isHard
  slots := second.slots ∘ first.slots

theorem moveTo (block : Block α) (x y : α) : block.Keeps (block.moveTo x y) := ⟨rfl, rfl, id⟩

theorem option {macros current index : Nat} {options : List (Size α)} {size : Size α}
    (form : block.form = .hard macros options current) (found : options[index]? = some size) :
    block.Keeps { block with
      form := .hard macros options index, width := size.width, height := size.height } where
  name := rfl
  isHard := by simp only [Block.isHard, Block.isSoft, form]
  slots _ := (List.getElem?_eq_some_iff.mp found).1

variable [Number α]

theorem withRatio (block : Block α) (ratio : α) : block.Keeps (block.withRatio ratio) :=
  ⟨rfl, rfl, id⟩

theorem stretchTo (block : Block α) (axis : Axis) (length : α) :
    block.Keeps (Move.stretchTo block axis length) := by
  cases axis with
  | x =>
      rw [Move.stretchTo, changeWidth]
      split
      · exact refl block
      · split
        · exact ⟨rfl, rfl, id⟩
        · exact refl block
  | y =>
      rw [Move.stretchTo, changeHeight]
      split
      · exact refl block
      · split
        · exact ⟨rfl, rfl, id⟩
        · exact refl block

theorem shrink (block : Block α) (factor : α) : block.Keeps (block.shrink factor) := by
  rw [Block.shrink]
  split
  · exact refl block
  next ratios widths heights form =>
    refine ⟨rfl, ?_, ?_⟩
    · simp only [Block.isHard, Block.isSoft, Form.ofRatios, form]
    · rw [form]
      rintro ⟨nonempty, _, _⟩
      exact ⟨nonempty, List.length_map _, List.length_map _⟩

theorem of_atOrigin_eq (same : next.atOrigin = block.atOrigin) : block.Keeps next := by
  have placed : block.Keeps next.atOrigin := same ▸ moveTo block 0 0
  exact ⟨placed.name, placed.isHard, placed.slots⟩

end Keeps

/-- What a draw of a new shape can make of a block; where it looks up a position, there is one. -/
inductive Reshapes [Number α] (block : Block α) : Block α → Prop where
  | option {macros current index : Nat} {options : List (Size α)} {size : Size α}
      (form : block.form = .hard macros options current) (found : options[index]? = some size) :
      Reshapes block { block with
        form := .hard macros options index, width := size.width, height := size.height }
  | ratio {ratios widths heights : List (Interval α)} {index : Nat} {range : Interval α} {ratio : α}
      (form : block.form = .soft ratios widths heights) (found : ratios[index]? = some range) :
      Reshapes block (block.withRatio ratio)
  | stretch {ratios widths heights : List (Interval α)} {axis : Axis} {length : α}
      (form : block.form = .soft ratios widths heights) (limited : widths ≠ [] ∧ heights ≠ []) :
      Reshapes block (Move.stretchTo block axis length)

section Draws

variable [Number α] {block next : Block α}

theorem Reshapes.keeps (reshapes : block.Reshapes next) : block.Keeps next := by
  cases reshapes with
  | option form found => exact .option form found
  | ratio => exact .withRatio block _
  | stretch => exact .stretchTo block _ _

theorem reshapes_chooseOption {macros current index : Nat} {options : List (Size α)}
    (form : block.form = .hard macros options current) (bound : index < options.length) :
    block.Reshapes (block.chooseOption index) := by
  have found : options[index]? = some options[index] := List.getElem?_eq_getElem bound
  have equality : block.chooseOption index = { block with
      form := .hard macros options index, width := options[index].width
      height := options[index].height } := by
    simp only [chooseOption, form, found]
  rw [equality]
  exact .option form found

theorem reshapes_stretchTo (slots : block.form.HasSlots) (isSoft : block.isHard = false)
    (axis : Axis) (length : α) : block.Reshapes (Move.stretchTo block axis length) := by
  cases form : block.form with
  | hard => simp [isHard, Block.isSoft, form] at isSoft
  | soft ratios widths heights =>
      rw [form] at slots
      obtain ⟨nonempty, sameWidths, sameHeights⟩ := slots
      have positive := List.length_pos_iff.mpr nonempty
      refine .stretch form ⟨?_, ?_⟩
      · exact List.length_pos_iff.mp (sameWidths ▸ positive)
      · exact List.length_pos_iff.mp (sameHeights ▸ positive)

variable [IndexSource σ] [FractionSource σ α] [BoundedSource σ]

theorem reshapes_switchOption (resizable : block.isResizable = true) (isHard : block.isHard = true)
    (source : σ) :
    block.Reshapes (block.switchOption source).1 ∧ Draws α source (block.switchOption source).2 := by
  rw [switchOption]
  split
  next form => simp [Block.isHard, isSoft, form] at isHard
  next macros options current form =>
    have several : 1 < options.length := by simpa [isResizable, form] using resizable
    have nonempty : 0 < options.length - 1 := Nat.sub_pos_of_lt several
    rw [if_neg (Nat.not_lt.mpr several)]
    dsimp only
    constructor
    · exact reshapes_chooseOption form (skip_lt (BoundedSource.index_lt source nonempty))
    · exact .index nonempty (.refl _)

theorem reshapes_randomRatio (slots : block.form.HasSlots) (isSoft : block.isHard = false)
    (source : σ) :
    block.Reshapes (block.randomRatio source).1 ∧ Draws α source (block.randomRatio source).2 := by
  rw [randomRatio]
  split
  next form => simp [Block.isHard, Block.isSoft, form] at isSoft
  next ratios widths heights form =>
    rw [form] at slots
    have nonempty : 0 < ratios.length := List.length_pos_iff.mpr slots.1
    have bound := BoundedSource.index_lt source nonempty
    have some : ¬ ratios.isEmpty = true := by simpa using slots.1
    rw [if_neg some]
    dsimp only
    rw [List.getElem?_eq_getElem bound]
    dsimp only
    split
    · exact ⟨.ratio form (List.getElem?_eq_getElem bound), .index nonempty (.refl _)⟩
    · exact ⟨.ratio form (List.getElem?_eq_getElem bound), .index nonempty (.fraction (.refl _))⟩

theorem reshapes_randomize (slots : block.form.HasSlots) (source : σ) :
    block.Reshapes (block.randomize source).1 ∧ Draws α source (block.randomize source).2 := by
  rw [randomize]
  split
  next form => exact reshapes_randomRatio slots (by simp [isHard, isSoft, form]) source
  next macros options current form =>
    rw [form] at slots
    have nonempty : 0 < options.length := Nat.zero_lt_of_lt slots
    have some : ¬ options.isEmpty = true := by simpa using List.length_pos_iff.mp nonempty
    rw [if_neg some]
    dsimp only
    constructor
    · exact reshapes_chooseOption form (BoundedSource.index_lt source nonempty)
    · exact .index nonempty (.refl _)

theorem reshapes_randomizeAll {blocks : List (Block α)}
    (slots : ∀ block ∈ blocks, block.form.HasSlots) (source : σ) :
    List.Forall₂ Reshapes blocks (randomizeAll blocks source).1 ∧
      Draws α source (randomizeAll blocks source).2 := by
  induction blocks generalizing source with
  | nil => exact ⟨.nil, .refl _⟩
  | cons block rest induction =>
      obtain ⟨here, first⟩ := reshapes_randomize (slots block List.mem_cons_self) source
      obtain ⟨there, later⟩ := induction (fun other member => slots other (.tail _ member))
        (block.randomize source).2
      exact ⟨.cons here there, first.trans later⟩

end Draws

def AreKept (blocks next : List (Block α)) : Prop := List.Forall₂ Keeps blocks next

namespace AreKept

variable {blocks next last : List (Block α)}

theorem refl (blocks : List (Block α)) : AreKept blocks blocks :=
  List.forall₂_same.mpr fun block _ => .refl block

theorem trans (first : AreKept blocks next) (second : AreKept next last) : AreKept blocks last :=
  forall₂_trans first second fun here next => here.trans next

theorem slots (kept : AreKept blocks next) (slots : ∀ block ∈ blocks, block.form.HasSlots) :
    ∀ block ∈ next, block.form.HasSlots := by
  induction kept with
  | nil => exact nofun
  | cons here _ induction =>
      rw [List.forall_mem_cons] at slots ⊢
      exact ⟨here.slots slots.1, induction slots.2⟩

theorem kinds (kept : AreKept blocks next) :
    next.map (fun block => (block.name, block.isHard)) =
      blocks.map fun block => (block.name, block.isHard) := by
  induction kept with
  | nil => rfl
  | cons here _ induction =>
      rw [List.map_cons, List.map_cons, here.name, here.isHard, induction]

theorem set {index : Nat} {block other : Block α} (found : blocks[index]? = some block)
    (keeps : block.Keeps other) : AreKept blocks (blocks.set index other) :=
  forall₂_set_right (refl blocks) found fun _ kept => kept.trans keeps

variable [Number α]

theorem of_map_atOrigin_eq (same : next.map (·.atOrigin) = blocks.map (·.atOrigin)) :
    AreKept blocks next := by
  have places : List.Forall₂ (fun block other : Block α => other.atOrigin = block.atOrigin)
      blocks next := by
    rw [← List.forall₂_eq_eq_eq, List.forall₂_map_left_iff, List.forall₂_map_right_iff] at same
    exact same.flip
  exact places.imp fun block other => .of_atOrigin_eq

theorem pack (blocks : List (Block α)) (pair : SequencePair) :
    AreKept blocks (Floorplanner.pack blocks pair).1 :=
  of_map_atOrigin_eq (map_atOrigin_pack blocks pair)

theorem shrink (blocks : List (Block α)) (factor : α) :
    AreKept blocks (blocks.map (·.shrink factor)) := by
  rw [AreKept, List.forall₂_map_right_iff]
  exact List.forall₂_same.mpr fun block _ => .shrink block factor

end AreKept

end Block

end Floorplanner
