import StatementOutline.Error
import StatementOutline.Outline.Basic
import StatementOutline.Verdict

/-!
# Reducing a syntax tree to an outline

A reduction walks a syntax tree once, depth first. Every node visited is counted. A node out of
scope of the requested range is left with everything below it, and so is a node that the rules
close off; a node that is looked through hands its children to the statement above; a statement is
pushed and, if the verdict asks for it, its children are visited under it.

The walk can be stopped from outside. The signal is looked at only at every `interval`-th visit,
before anything else is done with the node, so a signal that is set late, or between two looks, may
go unnoticed. Notes of statements that collapse are kept in the order in which they are made, and a
signal can be set by one of them.
-/

namespace StatementOutline

/-- When the signal to stop is set. -/
inductive StopSignal where
  | never
  | fromStart
  /-- With the `n`-th collapse, counted from one. -/
  | atCollapse (n : Nat)
  deriving DecidableEq, Repr

/-- The signal is set by the time `collapses` statements have collapsed. -/
def StopSignal.isSet (signal : StopSignal) (collapses : Nat) : Bool :=
  match signal with
  | never => false
  | fromStart => true
  | atCollapse n => 0 < n && n ≤ collapses

/-- Where a walk stands. -/
structure Walk where
  /-- Nodes visited. -/
  visited : Nat := 0
  outline : Outline := {}
  /-- Collapses so far. -/
  notes : Array CollapseNote := #[]
  /-- The signal was seen; nothing more is visited. -/
  stopped : Bool := false
  deriving DecidableEq, Repr

/-- What a walk works on. -/
structure Reduction where
  table : RuleTable
  tree : SyntaxTree
  range : Span
  /-- Visits from one look at the signal to the next; zero counts as one. -/
  interval : Nat := 256
  signal : StopSignal := .never

namespace Walk

/-- Count one more visit. -/
def count (w : Walk) : Walk :=
  { w with visited := w.visited + 1 }

/-- Stop for good. -/
def stop (w : Walk) : Walk :=
  { w with stopped := true }

/-- Keep a note, if there is one. -/
def note (w : Walk) : Option CollapseNote → Walk
  | some n => { w with notes := w.notes.push n }
  | none => w

/-- Push the node as a statement under `owner`. -/
def push (w : Walk) (node : SyntaxNode) (compound : Bool) (owner : Option Nat) : Walk :=
  { w with outline := w.outline.push ⟨node.kind, node.span, node.bytes, compound, owner, #[]⟩ }

end Walk

namespace Reduction

/-- This visit looks at the signal and finds it set. -/
def seesSignal (r : Reduction) (w : Walk) : Bool :=
  w.visited % max r.interval 1 == 0 && r.signal.isSet w.notes.size

/-- Node `i` is in scope of the requested range. -/
def inScope (r : Reduction) (i : Nat) : Bool :=
  (r.tree.node i).span.inScope r.range

/-- Visit node `i` and what lies below it; its statements belong to `owner`. -/
def visit (r : Reduction) (owner : Option Nat) (w : Walk) (i : Nat) : Walk :=
  if w.stopped then w
  else if r.seesSignal w.count then w.count.stop
  else if !r.inScope i then w.count
  else
    let node := r.tree.node i
    let ruling := r.table.classify r.tree i
    let noted := w.count.note ruling.note
    match ruling.verdict with
    | .sealed => noted
    | .skip => (r.tree.children i).attach.foldl (fun w c => r.visit owner w c.1) noted
    | .statement compound descend =>
      let self := noted.outline.size
      let pushed := noted.push node compound owner
      if descend then
        (r.tree.children i).attach.foldl (fun w c => r.visit (some self) w c.1) pushed
      else
        pushed
  termination_by r.tree.size - i
  decreasing_by all_goals exact SyntaxTree.ahead_lt c.2

/-- One visit, with the visits of the children written as a plain fold. -/
theorem visit_eq (r : Reduction) (owner : Option Nat) (w : Walk) (i : Nat) :
    r.visit owner w i =
      if w.stopped then w
      else if r.seesSignal w.count then w.count.stop
      else if !r.inScope i then w.count
      else
        let noted := w.count.note (r.table.classify r.tree i).note
        match r.table.verdict r.tree i with
        | .sealed => noted
        | .skip => (r.tree.children i).foldl (r.visit owner) noted
        | .statement compound descend =>
          let pushed := noted.push (r.tree.node i) compound owner
          if descend then
            (r.tree.children i).foldl (r.visit (some noted.outline.size)) pushed
          else
            pushed := by
  rw [visit]
  simp only [List.foldl_attach, RuleTable.verdict]

/-- The whole walk, from the root on. -/
def walk (r : Reduction) : Walk :=
  match r.tree.root? with
  | some root => r.visit none {} root
  | none => {}

/-- The outline, unless the walk was stopped. -/
def outline (r : Reduction) : Except BuildError Outline :=
  if r.walk.stopped then .error .disposed else .ok r.walk.outline

end Reduction

end StatementOutline
