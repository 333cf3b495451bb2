import Floorplanner.Input
import Floorplanner.Text.Toml.Reader

/-!
Configuration documents.

A configuration is written in TOML. Every section and every key in it may be missing, and entries
under unknown keys are passed over.
-/

namespace Floorplanner

namespace Config

open Data

def count? : Data → Option Nat := natBelow? UInt64.size

/--
The entries of a section. It is a table, or a list of its fields in order, of which those beyond the
last are passed over. A date has no fields.
-/
def section? (fields : List String) : Data → Option (List (String × Data))
  | .table entries => some entries
  | .list items => some (fields.zip items)
  | .date _ => some []
  | _ => none

def weights? (data : Data) : Option (Terms Float) := do
  let base : Terms Float := defaultWeights
  let entries ← section?
    ["area", "wirelength", "outline", "boundary", "macro_blockage", "location", "notch"] data
  return {
    area := ← optional? real? base.area entries "area"
    wirelength := ← optional? real? base.wirelength entries "wirelength"
    outline := ← optional? real? base.outline entries "outline"
    boundary := ← optional? real? base.boundary entries "boundary"
    macroBlockage := ← optional? real? base.macroBlockage entries "macro_blockage"
    location := ← optional? real? base.location entries "location"
    notch := ← optional? real? base.notch entries "notch" }

def moves? (data : Data) : Option (Moves Float) := do
  let base : Moves Float := .default
  let entries ← section? ["resize", "pos_swap", "neg_swap", "double_swap"] data
  return {
    resize := ← optional? real? base.resize entries "resize"
    positiveSwap := ← optional? real? base.positiveSwap entries "pos_swap"
    negativeSwap := ← optional? real? base.negativeSwap entries "neg_swap"
    doubleSwap := ← optional? real? base.doubleSwap entries "double_swap" }

def annealing? (data : Data) : Option (Annealing Float) := do
  let base : Annealing Float := .default
  let entries ← section? ["init_prob", "max_num_step", "perturb_per_step"] data
  return {
    initialAcceptance := ← optional? real? base.initialAcceptance entries "init_prob"
    steps := ← optional? count? base.steps entries "max_num_step"
    movesPerStep := ← optional? count? base.movesPerStep entries "perturb_per_step" }

def shrinking? (data : Data) : Option (Shrinking Float) := do
  let base : Shrinking Float := .default
  let entries ← section? ["factor", "freq"] data
  return {
    factor := ← optional? real? base.factor entries "factor"
    frequency := ← optional? real? base.frequency entries "freq" }

def parallel? (data : Data) : Option (Parallel Float) := do
  let base : Parallel Float := .default
  let entries ← section?
    ["num_level", "num_worker", "heat_rate", "cooling_rate_max", "cooling_rate_min"] data
  return {
    levels := ← optional? count? base.levels entries "num_level"
    workers := ← optional? count? base.workers entries "num_worker"
    heatRate := ← optional? real? base.heatRate entries "heat_rate"
    coolingRateMax := ← optional? real? base.coolingRateMax entries "cooling_rate_max"
    coolingRateMin := ← optional? real? base.coolingRateMin entries "cooling_rate_min" }

def notching? (data : Data) : Option (Notching Float) := do
  let base : Notching Float := .default
  let entries ← section? ["max_threshold", "outline_fraction"] data
  return {
    maxThreshold := ← optional? real? base.maxThreshold entries "max_threshold"
    outlineFraction := ← optional? real? base.outlineFraction entries "outline_fraction" }

def ofEntries? (entries : List (String × Data)) : Option (Config Float) := do
  return {
    seed := (← optional? count? 0 entries "seed").toUInt64
    weights := ← optional? weights? defaultWeights entries "weights"
    moves := ← optional? moves? .default entries "moves"
    annealing := ← optional? annealing? .default entries "anneal"
    shrinking := ← optional? shrinking? .default entries "shrink"
    parallel := ← optional? parallel? .default entries "parallel"
    notching := ← optional? notching? .default entries "notch" }

def validate {α : Type} [Number α] (config : Config α) : Except (InputError α) Unit :=
  match config.check with
  | .error violation => .error (.parameter violation)
  | .ok () => .ok ()

def read (text : String) : Except (InputError Float) (Config Float) :=
  match (Toml.read? text).bind ofEntries? with
  | none => .error .malformed
  | some config => do
      config.validate
      return config

end Config

end Floorplanner
