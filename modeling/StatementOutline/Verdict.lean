import StatementOutline.Rule.Basic
import StatementOutline.SyntaxTree.Basic

/-!
# Verdicts

What a rule table makes of a node of a tree: looked through, closed off, or a statement with a
compound flag and the decision whether nested statements are attached to it.

The verdict follows the node's rule, with one exception. A node that would be descended into, is of
a collapsing kind, stands on one line and has no block (`hasBlock`) is collapsed: it becomes a
statement without nested ones, and a note is made of it, whoever asks for the verdict. The block is
searched among the children, seeing through nodes that the table looks through; the kind of a node
is tested before that.
-/

namespace StatementOutline

/-- What becomes of a node. -/
inductive Verdict where
  /-- Not a statement; its children stand in its place. -/
  | skip
  /-- Not a statement, and nothing below it is one. -/
  | sealed
  /-- A statement; `descend` tells whether nested statements are attached to it. -/
  | statement (compound descend : Bool)
  deriving DecidableEq, Repr

/-- Note of a statement that collapsed. -/
structure CollapseNote where
  kind : String
  span : Span
  deriving DecidableEq, Repr

/-- A verdict, and the note that was made on the way to it. -/
structure Ruling where
  verdict : Verdict
  note : Option CollapseNote := none
  deriving DecidableEq, Repr

/-- The shape check holds at node `i`. -/
def Shape.holds (shape : Shape) (t : SyntaxTree) (i : Nat) : Bool :=
  match shape with
  | hasField name => (t.children i).any fun c => (t.node c).field == some name
  | contains kinds => (t.descendants i).any fun d => kinds.contains (t.node d).kind
  | multiline => !(t.node i).lines.isSingleLine

namespace RuleTable

/-- The rule that applies to node `i` in its position. -/
def ruleFor (table : RuleTable) (t : SyntaxTree) (i : Nat) : Rule :=
  let node := t.node i
  table.resolve node.kind (node.parent.map fun p => (t.node p).kind) node.field

/-- Some node below `i` is a block, and everything between the two is looked through. -/
def hasBlock (table : RuleTable) (t : SyntaxTree) (blocks : List String) (i : Nat) : Bool :=
  (t.children i).attach.any fun c =>
    blocks.contains (t.node c.1).kind ||
      (table.ruleFor t c.1 == .skip && table.hasBlock t blocks c.1)
  termination_by t.size - i
  decreasing_by exact SyntaxTree.ahead_lt c.2

theorem hasBlock_eq (table : RuleTable) (t : SyntaxTree) (blocks : List String) (i : Nat) :
    table.hasBlock t blocks i = (t.children i).any fun c =>
      blocks.contains (t.node c).kind ||
        (table.ruleFor t c == .skip && table.hasBlock t blocks c) := by
  rw [hasBlock, List.any_subtype
    (g := fun c => blocks.contains (t.node c).kind ||
      (table.ruleFor t c == .skip && table.hasBlock t blocks c)) fun _ _ => rfl,
    List.unattach_attach]

/-- The way node `i` collapses: it is of a collapsing kind, stands on one line, and has no block. -/
def collapse? (table : RuleTable) (t : SyntaxTree) (i : Nat) : Option Collapse :=
  table.collapse.filter fun c =>
    c.kinds.contains (t.node i).kind && (t.node i).lines.isSingleLine &&
      !table.hasBlock t c.blocks i

/-- The ruling on a node to descend into, which may collapse. -/
def openRuling (table : RuleTable) (t : SyntaxTree) (i : Nat) (compound : Bool) : Ruling :=
  match table.collapse? t i with
  | some c =>
    let node := t.node i
    { verdict := .statement c.keepCompound false, note := some ⟨node.kind, node.span⟩ }
  | none => { verdict := .statement compound true }

/-- The ruling on node `i`. -/
def classify (table : RuleTable) (t : SyntaxTree) (i : Nat) : Ruling :=
  match table.ruleFor t i with
  | .skip => { verdict := .skip }
  | .sealed => { verdict := .sealed }
  | .atomic | .byKind => { verdict := .statement false false }
  | .wrapper => table.openRuling t i false
  | .compound => table.openRuling t i true
  | .compoundIf shape =>
    if shape.holds t i then table.openRuling t i true else { verdict := .statement false false }

/-- The verdict on node `i`. -/
def verdict (table : RuleTable) (t : SyntaxTree) (i : Nat) : Verdict :=
  (table.classify t i).verdict

end RuleTable

end StatementOutline
