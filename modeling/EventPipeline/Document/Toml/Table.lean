import EventPipeline.Document.Basic

/-!
# `EventPipeline.Document.Toml.Table`: tables that are filled statement by statement

A document of this notation is a list of statements: headers that open a table and
assignments to the names of the open table. A table may be opened once and a name may be
assigned once; `Table.open?`, `Table.openElement?` and `Table.assign?` refuse what says
anything twice.
-/

set_option autoImplicit false

namespace EventPipeline.Document.Toml

/-- What a name of a table stands for. -/
inductive Entry where
  /-- an assigned value -/
  | value (d : Document)
  /-- a table: one that only longer names speak of is implied, one that assignments to
  dotted names made is dotted -/
  | table (implied dotted : Bool) (entries : List (String × Entry))
  /-- a list of tables, the last one first -/
  | tables (elements : List (List (String × Entry)))

/-- The names of a table in the order of the text. -/
abbrev Table := List (String × Entry)

namespace Table

/-- What a name stands for. -/
def get? (table : Table) (name : String) : Option Entry :=
  (table.find? fun entry => entry.1 == name).map (·.2)

/-- Gives a name its entry, in the place of an earlier one. -/
def put (table : Table) (name : String) (entry : Entry) : Table :=
  if (table.get? name).isSome then
    table.map fun e => if e.1 == name then (name, entry) else e
  else table ++ [(name, entry)]

/-- Changes the table at the end of a path. Tables on the way that are missing are
implied; those on the way of an assignment may not have been opened by a header. The
change is told whether dotted names made the table. -/
def within? (assigning : Bool) (change : Bool → Table → Option Table) (isDotted : Bool) :
    List String → Table → Option Table
  | [], table => change isDotted table
  | name :: path, table =>
    match table.get? name with
    | none =>
      (within? assigning change assigning path []).map fun inner =>
        table.put name (.table true assigning inner)
    | some (.table implied dotted inner) =>
      if assigning && !implied then none
      else
        (within? assigning change dotted path inner).map fun inner =>
          table.put name (.table implied dotted inner)
    | some (.tables (last :: earlier)) =>
      (within? assigning change false path last).map fun last =>
        table.put name (.tables (last :: earlier))
    | some _ => none

/-- Opens the table that a header names. -/
def open? (table : Table) (path : List String) : Option Table :=
  let change (name : String) (_ : Bool) (parent : Table) : Option Table :=
    match parent.get? name with
    | none => some (parent.put name (.table false false []))
    | some (.table true false inner) => some (parent.put name (.table false false inner))
    | some _ => none
  match path.getLast? with
  | none => none
  | some name => within? false (change name) false path.dropLast table

/-- Opens a new table at the end of the list of tables that a header names. -/
def openElement? (table : Table) (path : List String) : Option Table :=
  let change (name : String) (_ : Bool) (parent : Table) : Option Table :=
    match parent.get? name with
    | none => some (parent.put name (.tables [[]]))
    | some (.tables elements) => some (parent.put name (.tables ([] :: elements)))
    | some _ => none
  match path.getLast? with
  | none => none
  | some name => within? false (change name) false path.dropLast table

/-- Assigns a value to a possibly dotted name of the table that is open. -/
def assign? (table : Table) (opened path : List String) (d : Document) : Option Table :=
  match path.getLast? with
  | none => none
  | some name =>
    let isDotted := !path.dropLast.isEmpty
    let set (dotted : Bool) (parent : Table) : Option Table :=
      if isDotted != dotted || (parent.get? name).isSome then none
      else some (parent.put name (.value d))
    within? false (fun _ => within? true set false path.dropLast) false opened table

end Table

mutual

/-- What a name stands for as a document. -/
def Entry.document : Entry → Document
  | .value d => d
  | .table _ _ entries => .map (tableFields entries)
  | .tables elements => .list (tableItems elements).reverse

/-- The fields of a table as documents. -/
def tableFields : List (String × Entry) → List (String × Document)
  | [] => []
  | (name, entry) :: rest => (name, entry.document) :: tableFields rest

/-- The tables of a list as documents. -/
def tableItems : List (List (String × Entry)) → List Document
  | [] => []
  | table :: rest => .map (tableFields table) :: tableItems rest

end

end EventPipeline.Document.Toml
