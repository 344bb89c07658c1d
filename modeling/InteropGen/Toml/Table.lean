import InteropGen.Data

set_option autoImplicit false

/-!
# Tables under construction

A table grows while a document is read.  How it came to be decides what may still be added: a table
with a header of its own is not opened again, a table made by dotted keys takes further dotted keys
only, and a table that was merely passed through on the way to another may get its header later.
-/

namespace InteropGen.Toml

inductive Origin where
  | header
  | passed
  | dotted
  deriving DecidableEq

inductive Node where
  /-- A finished value; a table written inline is one of these. -/
  | value (d : Data)
  | table (origin : Origin) (entries : List (String × Node))
  /-- A list of tables, of which only the last one can still grow. -/
  | tables (earlier : List Data) (last : List (String × Node))

abbrev Entries := List (String × Node)

mutual

def Node.toData : Node → Data
  | .value d => d
  | .table _ entries => .record (entriesToData entries)
  | .tables earlier last => .list (earlier ++ [.record (entriesToData last)])

def entriesToData : List (String × Node) → List (String × Data)
  | [] => []
  | (key, node) :: entries => (key, node.toData) :: entriesToData entries

end

namespace Entries

def get? (es : Entries) (key : String) : Option Node := es.lookup key

def put (es : Entries) (key : String) (node : Node) : Entries :=
  match es with
  | [] => [(key, node)]
  | (k, n) :: rest => if k = key then (key, node) :: rest else (k, n) :: put rest key node

/-- Applies `f` to the table at a path of keys, making the tables on the way that are missing.
Dotted keys do not pass through tables that have a header. -/
def within (dotted : Bool) (f : Origin → Entries → Option Entries) :
    Origin → List String → Entries → Option Entries
  | origin, [], es => f origin es
  | _, key :: path, es =>
    match es.get? key with
    | none =>
      let origin := if dotted then Origin.dotted else Origin.passed
      (within dotted f origin path []).map fun inner => es.put key (.table origin inner)
    | some (.value _) => none
    | some (.table origin inner) =>
      if dotted && origin = .header then none
      else (within dotted f origin path inner).map fun inner => es.put key (.table origin inner)
    | some (.tables earlier last) =>
      (within dotted f .header path last).map fun last => es.put key (.tables earlier last)

/-- Adds a key that is new, to a table made by dotted keys exactly when the key is a dotted one. -/
def addLeaf (isDotted : Bool) (key : String) (value : Data) (origin : Origin) (es : Entries) :
    Option Entries :=
  if (origin = .dotted) ≠ isDotted then none
  else
    match es.get? key with
    | some _ => none
    | none => some (es.put key (.value value))

def assign (es : Entries) (path : List String) (value : Data) : Option Entries :=
  match path.getLast? with
  | none => none
  | some key =>
    within true (addLeaf (path.length ≠ 1) key value) .header path.dropLast es

def assignAll (es : Entries) (assignments : List (List String × Data)) : Option Entries :=
  assignments.foldlM (fun es (path, value) => es.assign path value) es

end Entries

/-- What a table header announces: one table, or the next table of a list. -/
inductive Heading where
  | table
  | element
  deriving DecidableEq

inductive Statement where
  | assign (path : List String) (value : Data)
  | heading (kind : Heading) (path : List String)

namespace Entries

def addSection (root : Entries) (kind : Heading) (path : List String)
    (assignments : List (List String × Data)) : Option Entries :=
  match path.getLast? with
  | none => none
  | some key =>
    within false (fun _ es =>
      match kind, es.get? key with
      | .table, none =>
        (assignAll [] assignments).map fun new => es.put key (.table .header new)
      | .table, some (.table .passed inner) =>
        (assignAll inner assignments).map fun new => es.put key (.table .header new)
      | .element, none =>
        (assignAll [] assignments).map fun new => es.put key (.tables [] new)
      | .element, some (.tables earlier last) =>
        (assignAll [] assignments).map fun new =>
          es.put key (.tables (earlier ++ [.record (entriesToData last)]) new)
      | _, _ => none) .header path.dropLast root

end Entries

structure Section where
  kind : Heading
  path : List String
  assignments : List (List String × Data)

def sections : List Statement → List (List String × Data) × List Section
  | [] => ([], [])
  | .assign path value :: rest =>
    let (top, below) := sections rest
    ((path, value) :: top, below)
  | .heading kind path :: rest =>
    let (own, below) := sections rest
    ([], ⟨kind, path, own⟩ :: below)

/-- The document that the statements describe, unless one of them defines something twice. -/
def assemble (statements : List Statement) : Option Data :=
  let (top, below) := sections statements
  (Entries.assignAll [] top).bind fun root =>
    (below.foldlM (fun root s => Entries.addSection root s.kind s.path s.assignments) root).map
      fun root => Data.record (entriesToData root)

end InteropGen.Toml
