import StatementOutline.Toml.Line

/-!
# TOML documents

The lines of a document, applied in order to an empty table. Assignments go to the table of the
last header, or to the document's own table before any header.
-/

namespace StatementOutline.Toml

/-- A document under way: its table, and the path of the table that assignments go to. -/
structure Draft where
  root : Entries := []
  here : List String := []

namespace Draft

/-- Apply one line. -/
def add? (d : Draft) : Line → Option Draft
  | .blank => some d
  | .header key => (Entries.updateAt? (Entries.openTable? key.name) key.path d.root).map
      fun root => ⟨root, key.steps⟩
  | .arrayHeader key => (Entries.updateAt? (Entries.appendTable? key.name) key.path d.root).map
      fun root => ⟨root, key.steps⟩
  | .assign key value =>
    (Entries.updateAt? (Entries.insertDotted? key.path key.name value) d.here d.root).map
      fun root => { d with root := root }

end Draft

/-- Drop a byte-order mark. -/
def dropMark : List Char → List Char
  | '\ufeff' :: rest => rest
  | rest => rest

/-- The table of a TOML document. -/
def read? (text : String) : Option Entries := do
  let lines ← readLines? (dropMark text.toList)
  let draft ← lines.foldlM Draft.add? {}
  return draft.root

end StatementOutline.Toml
