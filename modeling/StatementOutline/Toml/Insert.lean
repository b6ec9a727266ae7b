import StatementOutline.Toml.Value

/-!
# Adding to tables

Who may add what to a table. A key gets a value once. A dotted key makes the tables on its way, or
goes on through tables that no header has opened, and it ends in a table that dotted keys made. A
header opens a table once; it may go through any table that is not inline, through the last table
of an array of tables, and it may open a table that longer headers implied. Every other addition
is refused.
-/

namespace StatementOutline.Toml

namespace TableOrigin

/-- No header and no inline table stands behind the table, so a dotted key may go through it. -/
def isImplicit : TableOrigin → Bool
  | implied | dotted => true
  | header | inline => false

end TableOrigin

namespace Entries

/-- Give a key a value it does not have yet. -/
def insertNew? (entries : Entries) (key : String) (value : Value) : Option Entries :=
  match entries.value? key with
  | some _ => none
  | none => some (entries ++ [(key, value)])

/-- Change the last table of an array of tables. -/
def updateLast? (f : Entries → Option Entries) (items : List Entries) : Option (List Entries) := do
  let last ← items.getLast?
  let changed ← f last
  return items.dropLast ++ [changed]

/-- Give the dotted key `path.key` a value. -/
def insertDotted? : (path : List String) → (key : String) → Value → Entries → Option Entries
  | [], key, value, entries => entries.insertNew? key value
  | step :: path, key, value, entries =>
    match entries.value? step with
    | none =>
      (insertDotted? path key value []).map fun inner => entries.set step (.table .dotted inner)
    | some (.table origin inner) =>
      if origin.isImplicit && (!path.isEmpty || origin == .dotted) then
        (insertDotted? path key value inner).map fun inner => entries.set step (.table origin inner)
      else
        none
    | some (.tables items) =>
      if path.isEmpty then none
      else (updateLast? (insertDotted? path key value) items).map fun items =>
        entries.set step (.tables items)
    | some _ => none

/-- Change the table that a header's path leads to, making implied tables on the way. -/
def updateAt? (f : Entries → Option Entries) : (path : List String) → Entries → Option Entries
  | [], entries => f entries
  | step :: path, entries =>
    match entries.value? step with
    | none => (updateAt? f path []).map fun inner => entries.set step (.table .implied inner)
    | some (.table origin inner) =>
      if origin == .inline then none
      else (updateAt? f path inner).map fun inner => entries.set step (.table origin inner)
    | some (.tables items) =>
      (updateLast? (updateAt? f path) items).map fun items => entries.set step (.tables items)
    | some _ => none

/-- Open the table of a header, in the table that its path leads to. -/
def openTable? (key : String) (entries : Entries) : Option Entries :=
  match entries.value? key with
  | none => some (entries.set key (.table .header []))
  | some (.table .implied inner) => some (entries.set key (.table .header inner))
  | some _ => none

/-- Add a table to the array of a double-bracket header, in the table that its path leads to. -/
def appendTable? (key : String) (entries : Entries) : Option Entries :=
  match entries.value? key with
  | none => some (entries.set key (.tables [[]]))
  | some (.tables items) => some (entries.set key (.tables (items ++ [[]])))
  | some _ => none

end Entries

end StatementOutline.Toml
