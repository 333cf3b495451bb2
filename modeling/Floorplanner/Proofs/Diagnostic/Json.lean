import Mathlib
import Floorplanner.Diagnostic.Json
import Floorplanner.Proofs.Text.Json.Record

/-!
Diagnostics survive their form in JSON.

Every field is a member of its own, and no other member has its key, so a reader finds each of them
again. A list without entries has no member, and a list without a member has no entries.
-/

namespace Floorplanner

namespace Diagnostic

namespace Code

theorem isWritten_toJson (code : Code) : code.toJson.IsWritten := by
  apply Json.IsWritten.ofMembers
  intro member isMember
  simp only [List.mem_cons, List.not_mem_nil, or_false] at isMember
  rcases isMember with rfl | rfl
  · exact .ofText _
  · exact .ofNat _

@[simp] theorem ofJson?_toJson (code : Code) : ofJson? code.toJson = some code := by
  obtain ⟨category, number⟩ := code
  have distinct : (([("category", Json.ofText category.name),
      ("number", Json.ofNat number.toNat)] : List (String × Json)).map (·.1)).Nodup := by
    simp
  have found : Json.asNamed? Category.all Category.name (.ofText category.name) = some category :=
    Json.asNamed?_ofText (by cases category <;> decide)
  have below : Json.asNatBelow? UInt16.size (.ofNat number.toNat) = some number.toNat :=
    Json.asNatBelow?_ofNat number.toNat_lt (number.toNat_lt.le.trans (by decide))
  rw [ofJson?, toJson, Json.asRecord?_ofMembers _ distinct]
  simp [Json.required?, List.lookup, found, below]

end Code

def members (diagnostic : Diagnostic) : List (String × Json) :=
  [("severity", .ofText diagnostic.severity.label), ("code", diagnostic.code.toJson),
    ("message", .ofText diagnostic.message)] ++
    linesMember "notes" diagnostic.notes ++ linesMember "help" diagnostic.help

theorem toJson_eq (diagnostic : Diagnostic) : diagnostic.toJson = .ofMembers diagnostic.members := rfl

section Members

variable (diagnostic : Diagnostic)

theorem keys_linesMember (key : String) (lines : List String) :
    (linesMember key lines).map (·.1) = if lines = [] then [] else [key] := by
  cases lines <;> rfl

theorem keys_members :
    diagnostic.members.map (·.1) = ["severity", "code", "message"] ++
      (if diagnostic.notes = [] then [] else ["notes"]) ++
      (if diagnostic.help = [] then [] else ["help"]) := by
  rw [members, List.map_append, List.map_append, keys_linesMember, keys_linesMember]
  rfl

theorem nodup_keys : (diagnostic.members.map (·.1)).Nodup := by
  rw [keys_members]
  split <;> split <;> decide

theorem isWritten_linesMember {key : String} {lines : List String} {member : String × Json}
    (isMember : member ∈ linesMember key lines) : member.2.IsWritten := by
  cases lines with
  | nil => cases isMember
  | cons line lines =>
      cases List.mem_singleton.mp isMember
      exact Json.isWritten_ofTexts _

theorem isWritten_toJson : diagnostic.toJson.IsWritten := by
  apply Json.IsWritten.ofMembers
  intro member isMember
  rcases List.mem_append.mp isMember with earlier | help
  · rcases List.mem_append.mp earlier with fixed | notes
    · simp only [List.mem_cons, List.not_mem_nil, or_false] at fixed
      rcases fixed with rfl | rfl | rfl
      · exact .ofText _
      · exact diagnostic.code.isWritten_toJson
      · exact .ofText _
    · exact isWritten_linesMember notes
  · exact isWritten_linesMember help

theorem ofJson?_toJson : ofJson? diagnostic.toJson = some diagnostic := by
  rw [ofJson?, toJson_eq, Json.asRecord?_ofMembers _ diagnostic.nodup_keys]
  obtain ⟨severity, code, message, notes, help⟩ := diagnostic
  have named : Json.asNamed? Severity.all Severity.label (.ofText severity.label) = some severity :=
    Json.asNamed?_ofText (by cases severity <;> decide)
  cases notes <;> cases help <;>
    simp [members, linesMember, Json.required?, Json.optional?, List.lookup, named,
      Json.asListOf?_ofTexts]

end Members

/--
Reading the JSON text of a diagnostic gives the diagnostic back, and the text has a key for its notes
and one for its suggestions exactly if it has any.
-/
theorem toJson_read_back (diagnostic : Diagnostic) :
    read? diagnostic.toJson.compact = some diagnostic ∧
      ∃ keys, (Json.read? diagnostic.toJson.compact).bind Json.keys? = some keys ∧
        ("notes" ∉ keys ↔ diagnostic.notes = []) ∧ ("help" ∉ keys ↔ diagnostic.help = []) := by
  have read := diagnostic.isWritten_toJson.read?_compact
  refine ⟨?_, diagnostic.members.map (·.1), ?_, ?_⟩
  · rw [Diagnostic.read?, read]
    exact diagnostic.ofJson?_toJson
  · rw [read]
    exact Json.keys?_ofMembers diagnostic.members
  · rw [keys_members]
    constructor
    · split <;> simp_all
    · split <;> simp_all

end Diagnostic

end Floorplanner
