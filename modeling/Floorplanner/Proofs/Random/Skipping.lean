import Mathlib
import Floorplanner.Binary64
import Floorplanner.Move
import Floorplanner.Random.Script

/-!
Draws that step over an index.

An index other than a given one is drawn as an index below one less, and moved up by one from the
given one on. Every index that may be drawn is reached so, and from one draw only. So if the draws are
equally likely, what they stand for is too: the pairs of different indices, and the options that a hard
block may change to.
-/

namespace Floorplanner

namespace Block

variable {excluded drawn index count : Nat}

theorem skip_lt (bound : drawn < count - 1) : skip excluded drawn < count := by
  unfold skip
  split <;> omega

theorem skip_ne (excluded drawn : Nat) : skip excluded drawn ≠ excluded := by
  unfold skip
  split <;> omega

theorem skip_injective (excluded : Nat) : Function.Injective (skip excluded) := by
  intro first second same
  unfold skip at same
  split at same <;> split at same <;> omega

/-- Skipping reaches every index but the excluded one. -/
theorem exists_skip_eq (different : excluded ≠ index) (excludedBound : excluded < count)
    (bound : index < count) : ∃ drawn < count - 1, skip excluded drawn = index := by
  by_cases later : excluded < index
  · refine ⟨index - 1, by omega, ?_⟩
    rw [skip, if_pos (by omega)]
    omega
  · refine ⟨index, by omega, ?_⟩
    rw [skip, if_neg (by omega)]

theorem bijOn_skip (bound : excluded < count) :
    Set.BijOn (skip excluded) {drawn | drawn < count - 1}
      {index | index < count ∧ index ≠ excluded} := by
  refine ⟨?_, (skip_injective excluded).injOn, ?_⟩
  · intro drawn drawnBound
    exact ⟨skip_lt drawnBound, skip_ne excluded drawn⟩
  · intro index ⟨indexBound, different⟩
    exact exists_skip_eq different.symm bound indexBound

theorem switchOption_eq {α σ : Type} [Number α] [IndexSource σ] [FractionSource σ α]
    {block : Block α} {macros current : Nat} {options : List (Size α)} {source : σ} {size : Size α}
    (form : block.form = .hard macros options current) (several : 2 ≤ options.length)
    (found : options[skip current (IndexSource.index (options.length - 1) source).1]? = some size) :
    block.switchOption source =
      ({ block with
          form := .hard macros options
            (skip current (IndexSource.index (options.length - 1) source).1)
          width := size.width
          height := size.height },
        (IndexSource.index (options.length - 1) source).2) := by
  simp only [switchOption, form, if_neg (Nat.not_lt.mpr several), chooseOption, found]

end Block

namespace Move

theorem bijOn_skip_pair (count : Nat) :
    Set.BijOn (fun draws : Nat × Nat => (draws.1, Block.skip draws.1 draws.2))
      {draws | draws.1 < count ∧ draws.2 < count - 1}
      {pair | pair.1 < count ∧ pair.2 < count ∧ pair.1 ≠ pair.2} := by
  refine ⟨?_, ?_, ?_⟩
  · intro draws ⟨firstBound, secondBound⟩
    exact ⟨firstBound, Block.skip_lt secondBound, (Block.skip_ne draws.1 draws.2).symm⟩
  · intro draws _ others _ same
    obtain ⟨first, second⟩ := Prod.mk.inj same
    rw [first] at second
    exact Prod.ext first (Block.skip_injective others.1 second)
  · intro pair ⟨firstBound, secondBound, different⟩
    obtain ⟨drawn, drawnBound, skipped⟩ := Block.exists_skip_eq different firstBound secondBound
    exact ⟨(pair.1, drawn), ⟨firstBound, drawnBound⟩, Prod.ext rfl skipped⟩

end Move

/--
Of the pairs of different indices below a count, each comes from one pair of draws, of an index below
the count and one below one less. Of the options of a hard block other than its present one, each
comes from one draw below their number, and the block takes the sides of the option that is drawn.
-/
theorem skipping_draws_one_to_one :
    (∀ count : Nat, 2 ≤ count → ∃ pairOf : Nat × Nat → Nat × Nat,
      Set.BijOn pairOf {draws | draws.1 < count ∧ draws.2 < count - 1}
        {pair | pair.1 < count ∧ pair.2 < count ∧ pair.1 ≠ pair.2} ∧
      ∀ {σ : Type} [IndexSource σ] (source : σ),
        let first := IndexSource.index count source
        let second := IndexSource.index (count - 1) first.2
        Move.distinctPair count source = (pairOf (first.1, second.1), second.2)) ∧
    ∀ {α : Type} [Number α] (block : Block α) (macros current : Nat) (options : List (Size α)),
      block.form = .hard macros options current → 2 ≤ options.length → current < options.length →
      ∃ optionOf : Nat → Nat,
        Set.BijOn optionOf {drawn | drawn < options.length - 1}
          {index | index < options.length ∧ index ≠ current} ∧
        ∀ {σ : Type} [IndexSource σ] [FractionSource σ α] (source : σ),
          let draw := IndexSource.index (options.length - 1) source
          draw.1 < options.length - 1 →
            ∃ size, options[optionOf draw.1]? = some size ∧
              block.switchOption source =
                ({ block with
                    form := .hard macros options (optionOf draw.1)
                    width := size.width
                    height := size.height }, draw.2) := by
  constructor
  · intro count _
    exact ⟨_, Move.bijOn_skip_pair count, fun source => rfl⟩
  · intro α _ block macros current options form several bound
    have skips := Block.bijOn_skip bound
    refine ⟨Block.skip current, skips, ?_⟩
    intro σ _ _ source draw drawn
    have found := List.getElem?_eq_getElem (skips.mapsTo drawn).1
    exact ⟨_, found, Block.switchOption_eq form several found⟩

/-- Three blocks, and a hard one of three options that is switched by the highest word. -/
theorem skipping_draws_one_to_one_three :
    let options : List (Size Float) := [⟨3, 2⟩, ⟨2, 3⟩, ⟨6, 1⟩]
    let switched := (Block.hard "shelf" 6 1 options).switchOption (⟨[-1]⟩ : WordScript)
    (∃ pairOf : Nat × Nat → Nat × Nat,
      Set.BijOn pairOf {draws | draws.1 < 3 ∧ draws.2 < 2}
        {pair | pair.1 < 3 ∧ pair.2 < 3 ∧ pair.1 ≠ pair.2}) ∧
      ∃ index size, (index < 3 ∧ index ≠ 0) ∧ options[index]? = some size ∧
        switched.1.shape = ⟨size.width, size.height, index⟩ := by
  intro options switched
  constructor
  · obtain ⟨pairOf, oneToOne, _⟩ := skipping_draws_one_to_one.1 3 (by decide)
    exact ⟨pairOf, oneToOne⟩
  · obtain ⟨optionOf, oneToOne, switches⟩ := skipping_draws_one_to_one.2
      (.hard "shelf" 6 1 options) 1 0 options rfl (by decide) (by decide)
    have drawn : (IndexSource.index (options.length - 1) (⟨[-1]⟩ : WordScript)).1 <
        options.length - 1 := by decide +kernel
    obtain ⟨size, found, becomes⟩ := switches (⟨[-1]⟩ : WordScript) drawn
    exact ⟨_, size, oneToOne.mapsTo drawn, found, congrArg (·.1.shape) becomes⟩

end Floorplanner
