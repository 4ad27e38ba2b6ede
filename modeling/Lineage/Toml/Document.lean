import Lineage.Toml.Basic

/-!
# Tables of a TOML document

A table may be defined only once, and what defined it decides what may be added later.

* A header `[a.b]` defines `a.b`, and implies `a` if nothing defined it. An implied table may be
  defined later by a header of its own.
* A dotted key `a.b = 1` defines `a`. Further dotted keys may add to it.
* A header `[[a]]` adds one more table to an array. Later keys and headers below `a` go to its last
  table.
* An array or table written as a value is closed.
-/
namespace Lineage.Toml

/-- What defined a table. -/
inductive Origin where
  | header
  | implied
  | dotted
  deriving DecidableEq, Repr, Inhabited

/-- What stands under a key while the document is read. -/
inductive Item where
  | value (v : Value)
  | table (origin : Origin) (entries : List (String × Item))
  | tables (elements : List (List (String × Item)))
  deriving Repr, Inhabited

/-- The entries of a table. -/
abbrev Entries := List (String × Item)

namespace Entries

/-- The entries with `item` under a key that is already there. -/
def replace (entries : Entries) (key : String) (item : Item) : Entries :=
  entries.map fun (k, old) => (k, if k = key then item else old)

/-- Adds a value under a dotted key. -/
def insert (v : Value) : List String → Entries → Option Entries
  | [], _ => none
  | [key], entries =>
    match entries.lookup key with
    | none => some (entries ++ [(key, .value v)])
    | some _ => none
  | key :: next :: more, entries =>
    let rest := next :: more
    match entries.lookup key with
    | none => (insert v rest []).map fun inner => entries ++ [(key, .table .dotted inner)]
    | some (.table .dotted inner) =>
      (insert v rest inner).map fun inner => entries.replace key (.table .dotted inner)
    | some (.table .implied inner) =>
      if more.isEmpty then none
      else (insert v rest inner).map fun inner => entries.replace key (.table .implied inner)
    | some (.tables elements) =>
      if more.isEmpty then none
      else
        (insert v rest (elements.getLast?.getD [])).map fun last =>
          entries.replace key (.tables (elements.dropLast ++ [last]))
    | some (.table .header _) => none
    | some (.value _) => none

/-- Applies `change` to the table that the keys lead to; tables on the way are implied if they are
not there. -/
def changeAt (change : Entries → Option Entries) : List String → Entries → Option Entries
  | [], entries => change entries
  | key :: rest, entries =>
    match entries.lookup key with
    | none => (changeAt change rest []).map fun inner => entries ++ [(key, .table .implied inner)]
    | some (.table origin inner) =>
      (changeAt change rest inner).map fun inner => entries.replace key (.table origin inner)
    | some (.tables elements) =>
      (changeAt change rest (elements.getLast?.getD [])).map fun last =>
        entries.replace key (.tables (elements.dropLast ++ [last]))
    | some (.value _) => none

/-- Defines a table by a header. -/
def openTable (path : List String) : Entries → Option Entries :=
  match path.getLast? with
  | none => fun _ => none
  | some key =>
    changeAt (fun entries =>
      match entries.lookup key with
      | none => some (entries ++ [(key, .table .header [])])
      | some (.table .implied inner) => some (entries.replace key (.table .header inner))
      | some _ => none) path.dropLast

/-- Adds one more table to an array of tables. -/
def addTable (path : List String) : Entries → Option Entries :=
  match path.getLast? with
  | none => fun _ => none
  | some key =>
    changeAt (fun entries =>
      match entries.lookup key with
      | none => some (entries ++ [(key, .tables [[]])])
      | some (.tables elements) => some (entries.replace key (.tables (elements ++ [[]])))
      | some _ => none) path.dropLast

end Entries

mutual

/-- The value that an item has come to. -/
def Item.toValue : Item → Value
  | .value v => v
  | .table _ entries => .table (entriesToValues entries)
  | .tables elements => .array (elementsToValues elements)

def entriesToValues : List (String × Item) → List (String × Value)
  | [] => []
  | (key, item) :: rest => (key, item.toValue) :: entriesToValues rest

def elementsToValues : List (List (String × Item)) → List Value
  | [] => []
  | entries :: rest => .table (entriesToValues entries) :: elementsToValues rest

end

/-- One line of a document that says something. -/
inductive Statement where
  | table (path : List String)
  | tableOfArray (path : List String)
  | entry (path : List String) (v : Value)
  deriving Repr, Inhabited

/-- Adds the statements in order; `header` leads to the table that entries go to. -/
def addStatements : List String → Entries → List Statement → Option Entries
  | _, entries, [] => some entries
  | header, entries, .entry path v :: rest =>
    match Entries.changeAt (Entries.insert v path) header entries with
    | none => none
    | some entries => addStatements header entries rest
  | _, entries, .table path :: rest =>
    match Entries.openTable path entries with
    | none => none
    | some entries => addStatements path entries rest
  | _, entries, .tableOfArray path :: rest =>
    match Entries.addTable path entries with
    | none => none
    | some entries => addStatements path entries rest

/-- The table that dotted entries alone make, as between braces. -/
def tableOfEntries? (entries : List (List String × Value)) : Option Value :=
  (entries.foldlM (fun es (path, v) => Entries.insert v path es) []).map fun es =>
    .table (entriesToValues es)

end Lineage.Toml
