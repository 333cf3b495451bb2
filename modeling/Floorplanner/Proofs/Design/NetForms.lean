import Floorplanner.Design.Document
import Floorplanner.Proofs.Fallible

/-!
The two forms of nets in a document.

A table is read as a fanout if its source is a text and each of its sinks can be read. Any other
table is read as an explicit net, even one with a source and sinks. All keys of an explicit net may
be missing, so a fault in a single sink can turn a fanout into a net that joins nothing.
-/

namespace Floorplanner

namespace Data

variable {β : Type} {entries : List (String × Data)} {key : String} {data : Data}

theorem required?_eq_some_iff {item? : Data → Option β} {value : β} :
    required? item? entries key = some value ↔
      ∃ data, lookup? key entries = some data ∧ item? data = some value :=
  Option.bind_eq_some_iff

theorem optional?_eq_some_iff {item? : Data → Option β} {default value : β} :
    optional? item? default entries key = some value ↔
      (∃ data, lookup? key entries = some data ∧ item? data = some value) ∨
        lookup? key entries = none ∧ value = default := by
  rw [optional?]
  cases lookup? key entries with
  | none => simp [eq_comm]
  | some data => simp

theorem listOf?_eq_some_iff {item? : Data → Option β} {values : List β} :
    listOf? item? data = some values ↔
      ∃ items, data = .list items ∧
        List.Forall₂ (fun item value => item? item = some value) items values := by
  cases data with
  | list items => simp [listOf?, mapM_eq_some_iff]
  | _ => simp [listOf?]

theorem natBelow?_eq_some_iff {bound count : Nat} :
    natBelow? bound data = some count ↔ data = .integer count ∧ count < bound := by
  cases data with
  | integer value =>
      rw [natBelow?, Option.ite_none_right_eq_some, Option.some.injEq, Data.integer.injEq]
      omega
  | _ => simp [natBelow?]

end Data

namespace Design

open Data

/-- The weight that entries give, which is one unless they say otherwise. -/
def IsWeight (entries : List (String × Data)) (weight : Nat) : Prop :=
  lookup? "weight" entries = some (.integer weight) ∧ weight < UInt32.size ∨
    lookup? "weight" entries = none ∧ weight = 1

/-- The names in the list under a key, of which there are none unless it is there. -/
def AreNames (key : String) (fields : List (String × Data)) (names : List String) : Prop :=
  (∃ items, lookup? key fields = some (.list items) ∧
      List.Forall₂ (fun item name => text? item = some name) items names) ∨
    lookup? key fields = none ∧ names = []

structure Sink.IsIn (sink : Sink) (entries : List (String × Data)) : Prop where
  name : ∃ data, lookup? "name" entries = some data ∧ text? data = some sink.name
  weight : IsWeight entries sink.weight

def Sink.IsGiven (sink : Sink) (data : Data) : Prop :=
  ∃ entries, record? ["name", "weight"] data = some entries ∧ sink.IsIn entries

structure IsFanout (fields : List (String × Data)) (source : String) (sinks : List Sink) :
    Prop where
  source : ∃ data, lookup? "source" fields = some data ∧ text? data = some source
  sinks : ∃ items, lookup? "sinks" fields = some (.list items) ∧
    List.Forall₂ (fun item sink => sink.IsGiven item) items sinks

structure IsExplicit (fields : List (String × Data)) (blocks terminals : List String)
    (weight : Nat) : Prop where
  blocks : AreNames "blocks" fields blocks
  terminals : AreNames "terminals" fields terminals
  weight : IsWeight fields weight

section Fields

variable {data : Data} {fields : List (String × Data)} {net : NetDescription}

theorem weight?_eq_some_iff {weight : Nat} :
    optional? count? 1 fields "weight" = some weight ↔ IsWeight fields weight := by
  simp only [optional?_eq_some_iff, count?, natBelow?_eq_some_iff, IsWeight, ← and_assoc,
    exists_and_right, exists_eq_right]

theorem names?_eq_some_iff {key : String} {names : List String} :
    optional? (listOf? text?) [] fields key = some names ↔ AreNames key fields names := by
  simp only [optional?_eq_some_iff, listOf?_eq_some_iff, AreNames]
  grind

theorem sink?_eq_some_iff {sink : Sink} : sink? data = some sink ↔ sink.IsGiven data := by
  simp only [sink?, Option.bind_eq_bind, Option.bind_eq_some_iff, Option.pure_def, Option.some.injEq,
    required?_eq_some_iff, weight?_eq_some_iff, Sink.IsGiven]
  constructor
  · rintro ⟨entries, record, name, named, weight, weighs, rfl⟩
    exact ⟨entries, record, named, weighs⟩
  · rintro ⟨entries, record, named, weighs⟩
    exact ⟨entries, record, sink.name, named, sink.weight, weighs, rfl⟩

theorem fanout?_eq_some_iff :
    fanout? fields = some net ↔
      ∃ source sinks, IsFanout fields source sinks ∧ net = .fanout source sinks := by
  simp only [fanout?, Option.bind_eq_bind, Option.bind_eq_some_iff, Option.pure_def,
    Option.some.injEq, required?_eq_some_iff, listOf?_eq_some_iff, sink?_eq_some_iff]
  constructor
  · rintro ⟨source, named, sinks, ⟨_, found, items, rfl, given⟩, rfl⟩
    exact ⟨source, sinks, ⟨named, items, found, given⟩, rfl⟩
  · rintro ⟨source, sinks, ⟨named, items, found, given⟩, rfl⟩
    exact ⟨source, named, sinks, ⟨_, found, items, rfl, given⟩, rfl⟩

theorem explicit?_eq_some_iff :
    explicit? fields = some net ↔
      ∃ blocks terminals weight, IsExplicit fields blocks terminals weight ∧
        net = .explicit blocks terminals weight := by
  simp only [explicit?, Option.bind_eq_bind, Option.bind_eq_some_iff, Option.pure_def,
    Option.some.injEq, names?_eq_some_iff, weight?_eq_some_iff]
  constructor
  · rintro ⟨blocks, areBlocks, terminals, areTerminals, weight, weighs, rfl⟩
    exact ⟨blocks, terminals, weight, ⟨areBlocks, areTerminals, weighs⟩, rfl⟩
  · rintro ⟨blocks, terminals, weight, ⟨areBlocks, areTerminals, weighs⟩, rfl⟩
    exact ⟨blocks, areBlocks, terminals, areTerminals, weight, weighs, rfl⟩

inductive NetDescription.IsGiven (fields : List (String × Data)) : NetDescription → Prop where
  | fanout {source : String} {sinks : List Sink} (given : IsFanout fields source sinks) :
      IsGiven fields (.fanout source sinks)
  | explicit {blocks terminals : List String} {weight : Nat}
      (other : ∀ source sinks, ¬ IsFanout fields source sinks)
      (given : IsExplicit fields blocks terminals weight) :
      IsGiven fields (.explicit blocks terminals weight)

theorem NetDescription.IsGiven.eq_fanout {source : String} {sinks : List Sink}
    (given : net.IsGiven fields) (fanout : IsFanout fields source sinks) :
    net = .fanout source sinks := by
  cases given with
  | fanout given =>
      have read := fanout?_eq_some_iff.mpr ⟨_, _, given, rfl⟩
      rw [fanout?_eq_some_iff.mpr ⟨_, _, fanout, rfl⟩] at read
      exact (Option.some.inj read).symm
  | explicit other => exact absurd fanout (other _ _)

theorem net?_eq_some_iff :
    net? data = some net ↔ ∃ fields, data = .table fields ∧ net.IsGiven fields := by
  cases data with
  | table fields =>
      have table : (Data.table fields).entries? = some fields := rfl
      rw [net?, table, Option.bind_eq_bind, Option.bind_some]
      cases form : fanout? fields with
      | some first =>
          obtain ⟨source, sinks, fanout, rfl⟩ := fanout?_eq_some_iff.mp form
          constructor
          · rintro ⟨⟩
            exact ⟨fields, rfl, .fanout fanout⟩
          · rintro ⟨_, ⟨⟩, given⟩
            rw [given.eq_fanout fanout]
      | none =>
          have other (source sinks) : ¬ IsFanout fields source sinks := fun fanout => by
            cases form.symm.trans (fanout?_eq_some_iff.mpr ⟨_, _, fanout, rfl⟩)
          constructor
          · intro read
            obtain ⟨blocks, terminals, weight, given, rfl⟩ := explicit?_eq_some_iff.mp read
            exact ⟨fields, rfl, .explicit other given⟩
          · rintro ⟨_, ⟨⟩, given⟩
            cases given with
            | fanout given => exact absurd given (other _ _)
            | explicit _ given => exact explicit?_eq_some_iff.mpr ⟨_, _, _, given, rfl⟩
  | _ => simp [net?, entries?]

end Fields

def AreNets (entries : List (String × Data)) (items : List Data) : Prop :=
  lookup? "nets" entries = some (.list items) ∨ lookup? "nets" entries = none ∧ items = []

section Documents

variable {format : Format} {text : String} {entries : List (String × Data)} {design : Design Float}

theorem nets_of_ofEntries? (described : ofEntries? entries = some design) :
    optional? (listOf? net?) [] entries "nets" = some design.nets := by
  simp only [ofEntries?, Option.bind_eq_bind, Option.bind_eq_some_iff, Option.pure_def,
    Option.some.injEq] at described
  obtain ⟨_, _, _, _, _, _, nets, read, _, _, _, _, rfl⟩ := described
  exact read

theorem ofEntries?_of_read (accepted : read format text = .ok design) :
    ∃ entries, format.entries? text = some entries ∧ ofEntries? entries = some design := by
  rw [read] at accepted
  split at accepted
  next => cases accepted
  next entries found =>
    split at accepted
    next => cases accepted
    next =>
      split at accepted
      next => cases accepted
      next described =>
        split at accepted
        next => cases accepted; exact ⟨entries, found, described⟩
        next => cases accepted

theorem exists_read_of_nets {nets : List NetDescription}
    (found : (read format text).toOption.map (·.nets) = some nets) :
    ∃ design, read format text = .ok design ∧ design.nets = nets := by
  cases accepted : read format text with
  | error => rw [accepted] at found; cases found
  | ok design => rw [accepted] at found; exact ⟨design, rfl, Option.some.inj found⟩

/--
The nets of a design are the tables of its document in their order. A table that gives a source and
sinks is the fanout of these, and only tables that do not are explicit nets.
-/
theorem nets_of_read (accepted : read format text = .ok design) :
    ∃ entries items, format.entries? text = some entries ∧ AreNets entries items ∧
      List.Forall₂
        (fun item net => ∃ fields, item = .table fields ∧ net.IsGiven fields ∧
          ∀ source sinks, IsFanout fields source sinks → net = .fanout source sinks)
        items design.nets := by
  obtain ⟨entries, found, described⟩ := ofEntries?_of_read accepted
  have given {item : Data} {net : NetDescription} (made : net? item = some net) :
      ∃ fields, item = .table fields ∧ net.IsGiven fields ∧
        ∀ source sinks, IsFanout fields source sinks → net = .fanout source sinks := by
    obtain ⟨fields, table, given⟩ := net?_eq_some_iff.mp made
    exact ⟨fields, table, given, fun _ _ => given.eq_fanout⟩
  rcases optional?_eq_some_iff.mp (nets_of_ofEntries? described) with ⟨data, under, list⟩ | absent
  · obtain ⟨items, rfl, made⟩ := listOf?_eq_some_iff.mp list
    exact ⟨entries, items, found, .inl under, made.imp fun _ _ => given⟩
  · obtain ⟨missing, none⟩ := absent
    rw [none]
    exact ⟨entries, [], found, .inr ⟨missing, rfl⟩, .nil⟩

end Documents

def bothForms : String :=
  "\x7b\"outline\": \x7b\"width\": 10, \"height\": 10\x7d, \"nets\": [" ++
    "\x7b\"source\": \"core\", \"sinks\": [\x7b\"name\": \"rom\"\x7d, [\"clk\", 2]]\x7d, " ++
    "\x7b\"blocks\": [\"core\"], \"weight\": 3\x7d]\x7d"

theorem nets_of_read_bothForms :
    ∃ design, read .json bothForms = .ok design ∧
      design.nets = [.fanout "core" [⟨"rom", 1⟩, ⟨"clk", 2⟩], .explicit ["core"] [] 3] ∧
      ∃ entries items, Format.json.entries? bothForms = some entries ∧ AreNets entries items ∧
        List.Forall₂
          (fun item net => ∃ fields, item = .table fields ∧ net.IsGiven fields ∧
            ∀ source sinks, IsFanout fields source sinks → net = .fanout source sinks)
          items design.nets := by
  have nets : (read .json bothForms).toOption.map (·.nets) =
      some [.fanout "core" [⟨"rom", 1⟩, ⟨"clk", 2⟩], .explicit ["core"] [] 3] := by decide +kernel
  obtain ⟨design, accepted, nets⟩ := exists_read_of_nets nets
  exact ⟨design, accepted, nets, nets_of_read accepted⟩

def negativeWeight : String :=
  "\x7b\"outline\": \x7b\"width\": 10, \"height\": 10\x7d, \"nets\": [" ++
    "\x7b\"source\": \"core\", \"sinks\": [\x7b\"name\": \"rom\", \"weight\": -1\x7d]\x7d]\x7d"

def isOneFanout : Data → Bool
  | .list [.table fields] => (lookup? "source" fields).isSome && (lookup? "sinks" fields).isSome
  | _ => false

theorem exists_fields_of_isOneFanout {data : Data} (one : isOneFanout data = true) :
    ∃ fields source sinks, data = .list [.table fields] ∧ lookup? "source" fields = some source ∧
      lookup? "sinks" fields = some sinks := by
  unfold isOneFanout at one
  split at one
  next fields =>
    rw [Bool.and_eq_true, Option.isSome_iff_exists, Option.isSome_iff_exists] at one
    obtain ⟨⟨source, starts⟩, sinks, ends⟩ := one
    exact ⟨fields, source, sinks, rfl, starts, ends⟩
  next => cases one

/-- The net has a source and sinks, but is read as an explicit net that joins nothing. -/
theorem fanout_read_as_explicit :
    (∃ entries fields source sinks, Format.json.entries? negativeWeight = some entries ∧
      lookup? "nets" entries = some (.list [.table fields]) ∧
      lookup? "source" fields = some source ∧ lookup? "sinks" fields = some sinks) ∧
    ∃ design, read .json negativeWeight = .ok design ∧ design.nets = [.explicit [] [] 1] := by
  constructor
  · have one : ((Format.json.entries? negativeWeight).bind (lookup? "nets")).any isOneFanout =
        true := by
      decide +kernel
    obtain ⟨data, found, one⟩ := (Option.any_eq_true _ _).mp one
    obtain ⟨entries, described, nets⟩ := Option.bind_eq_some_iff.mp found
    obtain ⟨fields, source, sinks, rfl, both⟩ := exists_fields_of_isOneFanout one
    exact ⟨entries, fields, source, sinks, described, nets, both⟩
  · apply exists_read_of_nets
    decide +kernel

end Design

end Floorplanner
