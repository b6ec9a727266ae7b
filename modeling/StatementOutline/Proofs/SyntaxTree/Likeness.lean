import Mathlib.Data.List.Basic
import StatementOutline.Proofs.Offset.Measure
import StatementOutline.Proofs.SyntaxTree.Ancestry
import StatementOutline.SyntaxTree.Rows
import StatementOutline.Verdict

/-!
# Trees that differ in spans

Two trees are `Alike` when their nodes agree in everything but the spans in units. No link, no rule
and no verdict looks at a span (`Alike.verdict_eq`). One listing read in two units gives trees that
are alike (`ofRows_alike`), and in each of them the spans measure the bytes (`ofRows_measured`).
-/

namespace StatementOutline

/-- The node with its span in units left blank. -/
def SyntaxNode.spanless (node : SyntaxNode) : SyntaxNode :=
  { node with span := default }

theorem SyntaxNode.spanless_eq_iff {a b : SyntaxNode} : a.spanless = b.spanless ↔
    a.kind = b.kind ∧ a.field = b.field ∧ a.bytes = b.bytes ∧ a.lines = b.lines ∧
      a.parent = b.parent := by
  simp [spanless]

namespace SyntaxTree

variable {t u : SyntaxTree}

/-- The trees agree in everything but the spans of their nodes. -/
def Alike (t u : SyntaxTree) : Prop :=
  t.nodes.map SyntaxNode.spanless = u.nodes.map SyntaxNode.spanless

namespace Alike

variable (h : t.Alike u)

include h

theorem size_eq : t.size = u.size := by
  simpa [size] using congrArg Array.size h

theorem getElem?_eq (i : Nat) :
    t.nodes[i]?.map SyntaxNode.spanless = u.nodes[i]?.map SyntaxNode.spanless := by
  simpa using congrArg (·[i]?) h

/-- Under one id the two trees have the same node but for the span, or neither has one. -/
theorem node_eq (i : Nat) : (t.node i).spanless = (u.node i).spanless := by
  have hi := h.getElem?_eq i
  unfold node
  cases ht : t.nodes[i]? with
  | none =>
    rw [ht, Option.map_none, eq_comm, Option.map_eq_none_iff] at hi
    rw [hi]
  | some a =>
    rw [ht, Option.map_some, eq_comm, Option.map_eq_some_iff] at hi
    obtain ⟨b, hb, hab⟩ := hi
    rw [hb]
    exact hab.symm

theorem kind_eq (i : Nat) : (t.node i).kind = (u.node i).kind :=
  (SyntaxNode.spanless_eq_iff.1 (h.node_eq i)).1

theorem field_eq (i : Nat) : (t.node i).field = (u.node i).field :=
  (SyntaxNode.spanless_eq_iff.1 (h.node_eq i)).2.1

theorem bytes_eq (i : Nat) : (t.node i).bytes = (u.node i).bytes :=
  (SyntaxNode.spanless_eq_iff.1 (h.node_eq i)).2.2.1

theorem lines_eq (i : Nat) : (t.node i).lines = (u.node i).lines :=
  (SyntaxNode.spanless_eq_iff.1 (h.node_eq i)).2.2.2.1

theorem parent_eq (i : Nat) : (t.node i).parent = (u.node i).parent :=
  (SyntaxNode.spanless_eq_iff.1 (h.node_eq i)).2.2.2.2

/-! ## Links -/

theorem parent?_eq (i : Nat) : t.parent? i = u.parent? i := by
  have hbind : ∀ v : SyntaxTree,
      v.parent? i = (v.nodes[i]?.map SyntaxNode.spanless).bind (·.parent) := by
    intro v
    rw [parent?, parentIn, Option.bind_map]
    rfl
  rw [hbind t, hbind u, h.getElem?_eq]

/-- Children are found by the parents that nodes name. -/
theorem children_eq (i : Nat) : t.children i = u.children i := by
  rw [children_eq_childIds, children_eq_childIds, childIds, childIds]
  have hsize : t.nodes.size = u.nodes.size := h.size_eq
  have hparent : ∀ j, parentIn t.nodes j = parentIn u.nodes j := h.parent?_eq
  simp only [childIdsBelow, hsize, hparent]

theorem ancestors_eq (i : Nat) : t.ancestors i = u.ancestors i := by
  unfold ancestors
  rw [funext h.parent?_eq]

theorem descendants_eq (i : Nat) : t.descendants i = u.descendants i := by
  induction i using child_induction t with
  | step i ih =>
    rw [SyntaxTree.descendants_eq, SyntaxTree.descendants_eq, ← h.children_eq]
    exact List.flatMap_congr fun c hc => by rw [ih c hc]

theorem preorder_eq : t.preorder = u.preorder := by
  unfold preorder
  rw [root?_eq, root?_eq, h.size_eq]
  simp only [h.descendants_eq]

theorem rooted_iff (i : Nat) : t.Rooted i ↔ u.Rooted i := by
  rw [Rooted, Rooted, h.size_eq, h.ancestors_eq]

/-! ## Rules and verdicts -/

/-- A rule is looked up by the kind of a node, the kind of its parent and its field. -/
theorem ruleFor_eq (table : RuleTable) (i : Nat) : table.ruleFor t i = table.ruleFor u i := by
  simp only [RuleTable.ruleFor, h.kind_eq, h.field_eq, h.parent_eq]

/-- A shape looks at lines, at fields of children and at kinds below, none of which is a span. -/
theorem shape_holds_eq (shape : Shape) (i : Nat) : shape.holds t i = shape.holds u i := by
  cases shape with
  | hasField name => simp only [Shape.holds, h.children_eq, h.field_eq]
  | contains kinds => simp only [Shape.holds, h.descendants_eq, h.kind_eq]
  | multiline => simp only [Shape.holds, h.lines_eq]

/-- The search for a block is decided by kinds and rules along the way down. -/
theorem hasBlock_eq (table : RuleTable) (blocks : List String) (i : Nat) :
    table.hasBlock t blocks i = table.hasBlock u blocks i := by
  induction i using child_induction t with
  | step i ih =>
    rw [RuleTable.hasBlock_eq, RuleTable.hasBlock_eq, ← h.children_eq]
    rw [Bool.eq_iff_iff, List.any_eq_true, List.any_eq_true]
    apply exists_congr
    intro c
    apply and_congr_right
    intro hc
    rw [h.kind_eq, h.ruleFor_eq, ih c hc]

theorem collapse?_eq (table : RuleTable) (i : Nat) : table.collapse? t i = table.collapse? u i := by
  simp only [RuleTable.collapse?, h.kind_eq, h.lines_eq, h.hasBlock_eq]

/-- The note of a collapse has the span of the node, but the verdict beside it does not. -/
theorem verdict_openRuling_eq (table : RuleTable) (i : Nat) (compound : Bool) :
    (table.openRuling t i compound).verdict = (table.openRuling u i compound).verdict := by
  unfold RuleTable.openRuling
  rw [h.collapse?_eq]
  cases table.collapse? u i with
  | none => rfl
  | some c => rfl

/-- Notes name spans and may differ, but verdicts do not. -/
theorem verdict_eq (table : RuleTable) (i : Nat) : table.verdict t i = table.verdict u i := by
  unfold RuleTable.verdict RuleTable.classify
  rw [h.ruleFor_eq]
  cases table.ruleFor u i with
  | wrapper => exact h.verdict_openRuling_eq table i false
  | compound => exact h.verdict_openRuling_eq table i true
  | compoundIf shape =>
    simp only [h.shape_holds_eq]
    split
    · exact h.verdict_openRuling_eq table i true
    · rfl
  | _ => rfl

end Alike

/-! ## One listing in two units -/

/-- A unit shows in the spans alone: who is named, and who stands under whom, is read off the
rows. -/
theorem map_spanless_namedNodes (map map' : UnitMap) (next : Nat) (lineage : List (Option Nat))
    (rows : List SyntaxRow) :
    (namedNodes map next lineage rows).map SyntaxNode.spanless =
      (namedNodes map' next lineage rows).map SyntaxNode.spanless := by
  induction rows generalizing next lineage with
  | nil => rfl
  | cons row rows ih =>
    simp only [namedNodes]
    split
    · rw [List.map_cons, List.map_cons, ih]
      rfl
    · exact ih next _

/-- One listing read in two units gives trees that are alike. -/
theorem ofRows_alike (map map' : UnitMap) (rows : List SyntaxRow) :
    (ofRows map rows).Alike (ofRows map' rows) := by
  have hmap := map_spanless_namedNodes map map' 0 [] rows
  simp only [Alike, ofRows, ofNodes, List.map_toArray, hmap]

theorem exists_row_of_mem_namedNodes {map : UnitMap} {next : Nat} {lineage : List (Option Nat)}
    {rows : List SyntaxRow} {node : SyntaxNode} (h : node ∈ namedNodes map next lineage rows) :
    ∃ row ∈ rows, ∃ parent, node = row.toNode map parent := by
  induction rows generalizing next lineage with
  | nil => cases h
  | cons row rows ih =>
    simp only [namedNodes] at h
    split at h
    · rcases List.mem_cons.1 h with rfl | h
      · exact ⟨row, List.mem_cons_self, _, rfl⟩
      · obtain ⟨row', hrow, hnode⟩ := ih h
        exact ⟨row', List.mem_cons_of_mem row hrow, hnode⟩
    · obtain ⟨row', hrow, hnode⟩ := ih h
      exact ⟨row', List.mem_cons_of_mem row hrow, hnode⟩

theorem exists_row_of_lt {map : UnitMap} {rows : List SyntaxRow} {i : Nat}
    (hi : i < (ofRows map rows).size) :
    ∃ row ∈ rows, ∃ parent, (ofRows map rows).node i = row.toNode map parent := by
  have hlt : i < (namedNodes map 0 [] rows).length := by simpa [size, ofRows, ofNodes] using hi
  have hnode : (ofRows map rows).node i = (namedNodes map 0 [] rows)[i] := by
    simp [node, ofRows, ofNodes, hlt]
  rw [hnode]
  exact exists_row_of_mem_namedNodes (List.getElem_mem hlt)

/-- Every node stands between boundaries of the text, and its span measures the bytes in the
unit. -/
def Measured (t : SyntaxTree) (encoding : OffsetEncoding) (text : String) : Prop :=
  ∀ i, Text.AtBoundaries text (t.node i).bytes ∧
    (t.node i).span = encoding.measureSpan text (t.node i).bytes

/-- If the rows of a listing are on boundaries of the text, the span of every node measures its
bytes. -/
theorem ofRows_measured (encoding : OffsetEncoding) {text : String} {rows : List SyntaxRow}
    (hrows : ∀ row ∈ rows, Text.AtBoundaries text row.bytes) :
    (ofRows (.ofText encoding text) rows).Measured encoding text := by
  intro i
  rcases Nat.lt_or_ge i (ofRows (.ofText encoding text) rows).size with hi | hi
  · obtain ⟨row, hrow, parent, hnode⟩ := exists_row_of_lt hi
    obtain ⟨hstart, hstop⟩ := hrows row hrow
    rw [hnode]
    refine ⟨⟨hstart, hstop⟩, ?_⟩
    show (⟨_, _⟩ : Span) = ⟨_, _⟩
    rw [encoding.toUnits_eq_unitsBefore hstart, encoding.toUnits_eq_unitsBefore hstop]
    rfl
  · rw [node_of_size_le hi]
    exact ⟨Text.atBoundaries_default text, (encoding.measureSpan_default text).symm⟩

end SyntaxTree

end StatementOutline
