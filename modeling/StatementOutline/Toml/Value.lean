/-!
# TOML values

A table remembers how it came to be, because that decides who may add to it later: one opened by a
header, one implied by a longer header, one made by a dotted key, or one written inline.

A number can be well written and still stand for nothing that a reader could take. Such a number
does no harm where nobody looks at it, so it is a value of its own and not a fault of the text.
-/

namespace StatementOutline.Toml

/-- How a table came to be. -/
inductive TableOrigin where
  /-- By a header of its own. -/
  | header
  /-- On the way to the table of a longer header. -/
  | implied
  /-- On the way along a dotted key. -/
  | dotted
  /-- Written inline; such a table is complete. -/
  | inline
  deriving DecidableEq, Repr

/-- A TOML value. Floating-point numbers and dates are told apart from other values, and what they
denote is not kept. -/
inductive Value where
  | string (s : String)
  | integer (n : Int)
  | float
  | boolean (b : Bool)
  | dateTime
  /-- A number that cannot be taken: too large for its kind, or a base without digits. -/
  | unusable
  /-- An array written as a value. -/
  | array (items : List Value)
  /-- An array of tables, one per double-bracket header. -/
  | tables (items : List (List (String × Value)))
  | table (origin : TableOrigin) (entries : List (String × Value))

/-- The entries of a table, in the order in which they were made. -/
abbrev Entries := List (String × Value)

mutual

/-- Every number in the value can be taken. -/
def Value.isUsable : Value → Bool
  | .unusable => false
  | .array items => itemsUsable items
  | .tables items => tablesUsable items
  | .table _ entries => Entries.areUsable entries
  | .string _ | .integer _ | .float | .boolean _ | .dateTime => true

/-- Every number in the items can be taken. -/
def itemsUsable : List Value → Bool
  | [] => true
  | item :: rest => item.isUsable && itemsUsable rest

/-- Every number in the tables can be taken. -/
def tablesUsable : List (List (String × Value)) → Bool
  | [] => true
  | entries :: rest => Entries.areUsable entries && tablesUsable rest

/-- Every number in the entries can be taken. -/
def Entries.areUsable : List (String × Value) → Bool
  | [] => true
  | (_, value) :: rest => value.isUsable && Entries.areUsable rest

end

namespace Entries

/-- The value of a key. -/
def value? (entries : Entries) (key : String) : Option Value :=
  entries.lookup key

/-- Give a key a value: in its place if it has one, at the end otherwise. -/
def set (key : String) (value : Value) : Entries → Entries
  | [] => [(key, value)]
  | (k, v) :: rest => if k = key then (key, value) :: rest else (k, v) :: set key value rest

end Entries

end StatementOutline.Toml
