import SiteManifest.Json.Basic

/-!
# TOML documents

A document is a table that grows line by line. Every table remembers how it came to be, since that
decides who may still add to it: a header opens a table once, a dotted key reaches only into tables
that dotted keys made, and values that are written out are closed.
-/
namespace SiteManifest.Toml

/-- How a table came to be. -/
inductive Origin where
  /-- Opened by a header of its own, or the document itself. -/
  | header
  /-- On the way to a header further in. -/
  | implied
  /-- On the way to the value of a dotted key. -/
  | dotted
  deriving DecidableEq, Repr

inductive Node where
  | value (v : Json)
  | table (origin : Origin) (members : List (String × Node))
  /-- The tables of an array, the last one first. -/
  | tables (members : List (List (String × Node)))

/-- The members of a table in their order. -/
abbrev Table := List (String × Node)

namespace Table

/-- Puts a node in the place of the one that a key has. -/
def replace (key : String) (node : Node) : Table → Table
  | [] => []
  | (k, n) :: rest => if k = key then (k, node) :: rest else (k, n) :: replace key node rest

def erase (key : String) : Table → Table
  | [] => []
  | (k, n) :: rest => if k = key then rest else (k, n) :: erase key rest

/-- Changes the table that a path leads to and that came to be in the given way; tables that are
missing on the way come to be as `origin`. Arrays lead into their last table. A dotted key passes
through no table that has a header. -/
def update (origin : Origin) (change : Origin → Table → Option Table) (here : Origin) :
    List String → Table → Option Table
  | [], t => change here t
  | key :: path, t =>
    match t.lookup key with
    | none => (update origin change origin path []).map fun u => t ++ [(key, .table origin u)]
    | some (.value _) => none
    | some (.table o u) =>
      if origin = .dotted && o = .header then none
      else (update origin change o path u).map fun u => t.replace key (.table o u)
    | some (.tables []) => none
    | some (.tables (u :: us)) =>
      (update origin change .header path u).map fun u => t.replace key (.tables (u :: us))

/-- Adds a value under a dotted key. A path leads to a table that dotted keys made. -/
def insert (t : Table) (path : List String) (key : String) (v : Json) : Option Table :=
  update .dotted (fun origin u =>
    if path ≠ [] && origin ≠ .dotted then none
    else if (u.lookup key).isSome then none
    else some (u ++ [(key, .value v)])) .header path t

end Table

/-- A value under its dotted key, whose last part stands apart. -/
structure Pair where
  path : List String
  key : String
  value : Json

def Table.insertAll (t : Table) (pairs : List Pair) : Option Table :=
  pairs.foldlM (fun t p => t.insert p.path p.key p.value) t

/-- A header with the values below it. An array header opens another table of an array. -/
structure Section where
  isArray : Bool
  path : List String
  key : String
  pairs : List Pair

namespace Table

/-- Opens the table of a header, which may have been implied before. -/
def openTable (parent : Table) (s : Section) : Option Table :=
  match parent.lookup s.key with
  | none => (insertAll [] s.pairs).map fun t => parent ++ [(s.key, .table .header t)]
  | some (.table .implied u) =>
    (insertAll u s.pairs).map fun t => parent.erase s.key ++ [(s.key, .table .header t)]
  | some _ => none

/-- Opens another table of an array. -/
def openElement (parent : Table) (s : Section) : Option Table :=
  match parent.lookup s.key with
  | none => (insertAll [] s.pairs).map fun t => parent ++ [(s.key, .tables [t])]
  | some (.tables ts) =>
    (insertAll [] s.pairs).map fun t => parent.replace s.key (.tables (t :: ts))
  | some _ => none

def addSection (t : Table) (s : Section) : Option Table :=
  update .implied (fun _ parent => if s.isArray then parent.openElement s else parent.openTable s)
    .header s.path t

end Table

/-- The values before the first header, and the sections. -/
structure Document where
  pairs : List Pair
  sections : List Section

def Document.table? (d : Document) : Option Table := do
  let root ← Table.insertAll [] d.pairs
  d.sections.foldlM Table.addSection root

mutual

def Node.toJson : Node → Json
  | .value v => v
  | .table _ members => .table (membersToJson members)
  | .tables ts => .list (tablesToJson [] ts)

def membersToJson : List (String × Node) → List (String × Json)
  | [] => []
  | (key, node) :: rest => (key, node.toJson) :: membersToJson rest

/-- The tables of an array in front of those that follow. -/
def tablesToJson (after : List Json) : List (List (String × Node)) → List Json
  | [] => after
  | t :: ts => tablesToJson (.table (membersToJson t) :: after) ts

end

def Table.toJson (t : Table) : Json := .table (membersToJson t)

end SiteManifest.Toml
