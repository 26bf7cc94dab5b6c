import Rollout.Number.Binary64

namespace Rollout

/-- A TOML value. Dates and times are kept without their content. -/
inductive Toml
  | string (s : String)
  | integer (n : Int)
  | float (x : Binary64)
  | boolean (b : Bool)
  | datetime
  | array (items : List Toml)
  | table (entries : List (String × Toml))
  deriving Inhabited

namespace Toml

/-- How a table came to be: by a header or as the whole document, as the parent of a header, or by
a dotted key. -/
inductive Origin
  | explicit
  | implied
  | dotted
  deriving DecidableEq, Repr

/-- A document under construction: finished values, open tables, and arrays of tables, whose last
table is the open one. -/
inductive Node
  | leaf (v : Toml)
  | table (origin : Origin) (entries : List (String × Node))
  | tables (earlier : List (List (String × Node))) (last : List (String × Node))
  deriving Inhabited

abbrev Entries := List (String × Node)

def lookup (key : String) (entries : Entries) : Option Node :=
  (entries.find? fun e ↦ e.1 == key).map (·.2)

def put (key : String) (node : Node) (entries : Entries) : Entries :=
  if entries.any fun e ↦ e.1 == key then
    entries.map fun e ↦ if e.1 == key then (key, node) else e
  else entries ++ [(key, node)]

/-- Adds a value under a dotted key. On the way only tables that a header or another dotted key
left open may be entered, and the table that gets the value must itself come from a dotted key
unless it is the open table. -/
def insertDotted (key : String) (v : Toml) :
    (path : List String) → (enclosing : Option Origin) → Entries → Option Entries
  | [], enclosing, entries =>
    if enclosing == none || enclosing == some .dotted then
      if (lookup key entries).isSome then none else some (entries ++ [(key, .leaf v)])
    else none
  | k :: path, _, entries =>
    match lookup k entries with
    | none =>
      (insertDotted key v path (some .dotted) []).map fun es ↦ entries ++ [(k, .table .dotted es)]
    | some (.leaf _) => none
    | some (.table .explicit _) => none
    | some (.table o es) =>
      (insertDotted key v path (some o) es).map fun es ↦ put k (.table o es) entries
    | some (.tables earlier last) =>
      (insertDotted key v path (some .explicit) last).map fun es ↦
        put k (.tables earlier es) entries

def descend (change : Entries → Option Entries) : List String → Entries → Option Entries
  | [], entries => change entries
  | k :: path, entries =>
    match lookup k entries with
    | none => (descend change path []).map fun es ↦ entries ++ [(k, .table .implied es)]
    | some (.leaf _) => none
    | some (.table o es) => (descend change path es).map fun es ↦ put k (.table o es) entries
    | some (.tables earlier last) =>
      (descend change path last).map fun es ↦ put k (.tables earlier es) entries

/-- Opens the table of a header. It must be new, or so far only the parent of other tables. -/
def openTable (key : String) (entries : Entries) : Option Entries :=
  match lookup key entries with
  | none => some (entries ++ [(key, .table .explicit [])])
  | some (.table .implied es) => some (put key (.table .explicit es) entries)
  | _ => none

def appendTable (key : String) (entries : Entries) : Option Entries :=
  match lookup key entries with
  | none => some (entries ++ [(key, .tables [] [])])
  | some (.tables earlier last) => some (put key (.tables (earlier ++ [last]) []) entries)
  | _ => none

mutual

def Node.finish : Node → Toml
  | .leaf v => v
  | .table _ es => .table (finishEntries es)
  | .tables earlier last => .array (finishTables earlier ++ [.table (finishEntries last)])

def finishEntries : Entries → List (String × Toml)
  | [] => []
  | (k, n) :: es => (k, n.finish) :: finishEntries es

def finishTables : List Entries → List Toml
  | [] => []
  | t :: ts => .table (finishEntries t) :: finishTables ts

end

end Toml

end Rollout
