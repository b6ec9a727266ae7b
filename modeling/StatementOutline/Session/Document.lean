import StatementOutline.Outline.Reduction
import StatementOutline.Rule.Builtin
import StatementOutline.Settings.Basic
import StatementOutline.SyntaxTree.Rows

/-!
# Documents

A document is what an outline is built from: a text with the tree that the grammar of its language
delivers, a requested range, and the settings. `Document.make` lets through only supported
languages and ranges inside the text.
-/

namespace StatementOutline

/-- A text with its grammar's tree and the range to outline. -/
structure Document where
  language : Language
  text : String
  rows : List SyntaxRow
  range : Span
  settings : Settings
  deriving DecidableEq, Repr

namespace Document

/-- Length of the text in the configured unit. -/
def length (d : Document) : Nat :=
  d.settings.offsetEncoding.measure d.text

/-- The range runs forward and ends inside the text. -/
def RangeValid (d : Document) : Prop :=
  d.range.start ≤ d.range.stop ∧ d.range.stop ≤ d.length

instance (d : Document) : Decidable d.RangeValid :=
  inferInstanceAs (Decidable (_ ∧ _))

/-- A document in the language an editor names. The language is looked at before the range. -/
def make (languageId text : String) (rows : List SyntaxRow) (range : Span) (settings : Settings) :
    Except BuildError Document :=
  match Language.ofId? languageId with
  | none => .error (.unsupportedLanguage languageId)
  | some language =>
    let d : Document := ⟨language, text, rows, range, settings⟩
    if d.RangeValid then .ok d else .error (.invalidRange range d.length)

/-- The syntax tree, positions in the configured unit. -/
def tree (d : Document) : SyntaxTree :=
  .ofRows (.ofText d.settings.offsetEncoding d.text) d.rows

/-- The reduction of the document, under a signal to stop. -/
def reduction (d : Document) (signal : StopSignal) : Reduction where
  table := d.language.rules
  tree := d.tree
  range := d.range
  interval := d.settings.checkInterval
  signal := signal

end Document

end StatementOutline
