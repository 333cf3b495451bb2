import Floorplanner.Config

/-!
Arithmetic on the terms of the cost.

The cost of a layout adds up the terms, each divided by its normalization constant and multiplied
by its weight. A term whose constant is not positive is left out.
-/

namespace Floorplanner

namespace Terms

variable {α β γ : Type}

def toList (terms : Terms α) : List α :=
  [terms.area, terms.wirelength, terms.outline, terms.boundary, terms.macroBlockage,
    terms.location, terms.notch]

def map (f : α → β) (terms : Terms α) : Terms β where
  area := f terms.area
  wirelength := f terms.wirelength
  outline := f terms.outline
  boundary := f terms.boundary
  macroBlockage := f terms.macroBlockage
  location := f terms.location
  notch := f terms.notch

def zipWith (f : α → β → γ) (first : Terms α) (second : Terms β) : Terms γ where
  area := f first.area second.area
  wirelength := f first.wirelength second.wirelength
  outline := f first.outline second.outline
  boundary := f first.boundary second.boundary
  macroBlockage := f first.macroBlockage second.macroBlockage
  location := f first.location second.location
  notch := f first.notch second.notch

def replicate (value : α) : Terms α := ⟨value, value, value, value, value, value, value⟩

@[simp] theorem toList_map (f : α → β) (terms : Terms α) :
    (terms.map f).toList = terms.toList.map f := rfl

@[simp] theorem toList_zipWith (f : α → β → γ) (first : Terms α) (second : Terms β) :
    (zipWith f first second).toList = List.zipWith f first.toList second.toList := rfl

variable [Number α]

def zero : Terms α := replicate 0

/-- What one term adds to the cost; nothing if its constant is not positive. -/
def share? (value norm weight : α) : Option α :=
  if 0 < norm then some (weight * value / norm) else none

def cost (terms norms weights : Terms α) : α :=
  let shares := zipWith (fun share weight => share weight) (zipWith share? terms norms) weights
  Number.sum (shares.toList.filterMap id)

/-- The terms over their constants; zero for a term whose constant is not positive. -/
def normalized (terms norms : Terms α) : Terms α :=
  zipWith (fun value norm => if 0 < norm then value / norm else 0) terms norms

/-- The mean of each term over some layouts; zero for none. -/
def mean (samples : List (Terms α)) : Terms α :=
  if samples.isEmpty then zero
  else
    (samples.foldl (zipWith (· + ·)) zero).map (· / (samples.length : α))

end Terms

end Floorplanner
