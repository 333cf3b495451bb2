import Floorplanner.Text.Data

/-!
Tables of TOML texts, while they are being filled.

A table may be given a part at a time, but each of its keys only once, and it may be written as a
table of its own only once. So every table remembers how it came about.
-/

namespace Floorplanner

namespace Toml

inductive Origin where
  | header
  /-- By the header of a table inside it. -/
  | inner
  | dotted
  deriving Repr, DecidableEq

inductive Node where
  | value (data : Data)
  | table (origin : Origin) (entries : List (String × Node))
  /-- Tables with the same header, in order; each is a table in its own right. -/
  | tables (items : List (List (String × Node)))

abbrev Entries := List (String × Node)

namespace Entries

def node? (entries : Entries) (key : String) : Option Node :=
  (List.find? (·.1 == key) entries).map (·.2)

def put (entries : Entries) (key : String) (node : Node) : Entries :=
  if entries.any (·.1 == key) then
    entries.map fun entry => if entry.1 == key then (key, node) else entry
  else entries ++ [(key, node)]

def remove (entries : Entries) (key : String) : Entries := entries.filter (·.1 != key)

/--
Changes the table at the end of a path. Tables that are missing on the way come about as `missing`.
A path leads into the last of several tables with the same header; it does not lead through values,
nor, if it is one of dotted keys, into tables that were written under a header.
-/
def changeAt (missing : Origin) (change : Origin → Entries → Option Entries) :
    List String → Origin → Entries → Option Entries
  | [], origin, entries => change origin entries
  | key :: path, _, entries =>
      match entries.node? key with
      | none =>
          (changeAt missing change path missing []).map fun inner =>
            entries.put key (.table missing inner)
      | some (.value _) => none
      | some (.tables items) =>
          (changeAt missing change path .header (items.getLastD [])).map fun inner =>
            entries.put key (.tables (items.dropLast ++ [inner]))
      | some (.table origin inner) =>
          if missing = .dotted ∧ origin = .header then none
          else
            (changeAt missing change path origin inner).map fun inner =>
              entries.put key (.table origin inner)

/--
Gives a key its value. Only a dotted key may add to a table that dotted keys made, and only to such
a one.
-/
def assign (entries : Entries) (path : List String) (key : String) (node : Node) :
    Option Entries :=
  changeAt .dotted
    (fun origin inner =>
      if (origin = .dotted) = (path = []) then none
      else if (inner.node? key).isSome then none
      else some (inner ++ [(key, node)]))
    path .header entries

end Entries

structure Draft where
  root : Entries
  path : List String
  repeated : Bool
  present : Entries

namespace Draft

def empty : Draft := ⟨[], [], false, []⟩

def assign (draft : Draft) (path : List String) (key : String) (value : Data) : Option Draft :=
  (draft.present.assign path key (.value value)).map fun present => { draft with present }

def complete (draft : Draft) : Option Entries :=
  match draft.path.getLast? with
  | none => some draft.present
  | some key =>
      Entries.changeAt .inner
        (fun _ inner =>
          if draft.repeated then
            match inner.node? key with
            | none => some (inner.put key (.tables [draft.present]))
            | some (.tables items) => some (inner.put key (.tables (items ++ [draft.present])))
            | some _ => none
          else some (inner ++ [(key, .table .header draft.present)]))
        draft.path.dropLast .header draft.root

def parent? (root : Entries) (path : List String) : Option (Entries × Entries) := do
  let changed ← Entries.changeAt .inner (fun _ inner => some inner) path .header root
  let inner ← follow path changed
  return (changed, inner)
where
  follow : List String → Entries → Option Entries
    | [], entries => some entries
    | key :: path, entries =>
        match entries.node? key with
        | some (.table _ inner) => follow path inner
        | some (.tables items) => follow path (items.getLastD [])
        | _ => none

/--
Starts the table of a header. The table may exist already if only headers of tables inside it made
it so; it is then taken out of its place until it is complete.
-/
def openTable (draft : Draft) (path : List String) : Option Draft := do
  let key ← path.getLast?
  let (root, inner) ← parent? (← draft.complete) path.dropLast
  match inner.node? key with
  | none => return ⟨root, path, false, []⟩
  | some (.table .inner entries) =>
      let root ← Entries.changeAt .inner (fun _ inner => some (inner.remove key)) path.dropLast
        .header root
      return ⟨root, path, false, entries⟩
  | some _ => none

def openRepeated (draft : Draft) (path : List String) : Option Draft := do
  let key ← path.getLast?
  let (root, inner) ← parent? (← draft.complete) path.dropLast
  match inner.node? key with
  | none => return ⟨root, path, true, []⟩
  | some (.tables _) => return ⟨root, path, true, []⟩
  | some _ => none

end Draft

mutual

def Node.toData : Node → Data
  | .value data => data
  | .table _ entries => .table (entriesToData entries)
  | .tables items => .list (itemsToData items)

def entriesToData : List (String × Node) → List (String × Data)
  | [] => []
  | (key, node) :: rest => (key, node.toData) :: entriesToData rest

def itemsToData : List (List (String × Node)) → List Data
  | [] => []
  | entries :: rest => .table (entriesToData entries) :: itemsToData rest

end

end Toml

end Floorplanner
