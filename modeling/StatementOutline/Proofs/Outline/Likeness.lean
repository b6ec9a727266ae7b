import StatementOutline.Proofs.Outline.RangeIndependence
import StatementOutline.Proofs.SyntaxTree.Likeness

/-!
# Outlines that differ in spans

Two reductions are `Alike` when they have one table, trees that are alike, and the same nodes in
scope. Their outlines are then `Alike` in turn: the same statements under the same ids, in
everything but the spans in units (`Alike.outline`).

Where the spans of two such outlines measure the same bytes, lookups at one boundary of the text,
given in the unit of each, go down the same way (`Alike.locate_eq`). Every comparison on that way is
one of bytes, so nothing is asked of the order of the spans.
-/

namespace StatementOutline

/-! ## Two reductions -/

namespace Reduction

/-- One table, trees that differ in spans, and the same nodes in scope. -/
structure Alike (r₁ r₂ : Reduction) : Prop where
  table_eq : r₁.table = r₂.table
  tree : r₁.tree.Alike r₂.tree
  inScope_eq : ∀ i, r₁.inScope i = r₂.inScope i

namespace Alike

variable {r₁ r₂ : Reduction} (h : r₁.Alike r₂)

include h

theorem verdict_eq (i : Nat) :
    r₁.table.verdict r₁.tree i = r₂.table.verdict r₂.tree i := by
  rw [h.table_eq, h.tree.verdict_eq]

theorem isStatement_eq (i : Nat) : r₁.isStatement i = r₂.isStatement i := by
  rw [isStatement, isStatement, h.verdict_eq]

theorem isOpen_eq (i : Nat) : r₁.isOpen i = r₂.isOpen i := by
  rw [isOpen, isOpen, h.verdict_eq]

theorem isCompound_eq (i : Nat) : r₁.isCompound i = r₂.isCompound i := by
  rw [isCompound, isCompound, h.verdict_eq]

/-- Scope is the same by assumption, and so are the verdicts, as they look at no span. -/
theorem selected_iff (i : Nat) : r₁.Selected i ↔ r₂.Selected i := by
  unfold Selected Reached
  simp only [h.tree.rooted_iff, h.tree.ancestors_eq, h.inScope_eq, h.isOpen_eq, h.isStatement_eq]

theorem selection_eq : r₁.selection = r₂.selection := by
  rw [selection, selection, h.tree.preorder_eq]
  apply List.filter_congr
  intro i _
  rw [decide_eq_decide]
  exact h.selected_iff i

theorem ownerId_eq (i : Nat) : r₁.ownerId i = r₂.ownerId i := by
  unfold ownerId holder?
  rw [h.selection_eq, h.tree.ancestors_eq, funext h.isStatement_eq]

end Alike

end Reduction

/-! ## Their outlines -/

namespace Outline

/-- The same statements under the same ids, in everything but the spans in units. -/
structure Alike (o₁ o₂ : Outline) : Prop where
  size_eq : o₁.size = o₂.size
  roots_eq : o₁.roots = o₂.roots
  kind_eq : ∀ i, (o₁.node i).kind = (o₂.node i).kind
  bytes_eq : ∀ i, (o₁.node i).bytes = (o₂.node i).bytes
  compound_eq : ∀ i, (o₁.node i).compound = (o₂.node i).compound
  parent_eq : ∀ i, (o₁.node i).parent = (o₂.node i).parent
  children_eq : ∀ i, (o₁.node i).children = (o₂.node i).children

/-- Every statement stands between boundaries of the text, and its span measures the bytes in the
unit. -/
def Measured (o : Outline) (encoding : OffsetEncoding) (text : String) : Prop :=
  ∀ i, Text.AtBoundaries text (o.node i).bytes ∧
    (o.node i).span = encoding.measureSpan text (o.node i).bytes

variable {o₁ o₂ : Outline}

/-- With links that agree, the lists of ids follow from the parents. -/
theorem Linked.alike (hl₁ : o₁.Linked) (hl₂ : o₂.Linked) (hsize : o₁.size = o₂.size)
    (hkind : ∀ i, (o₁.node i).kind = (o₂.node i).kind)
    (hbytes : ∀ i, (o₁.node i).bytes = (o₂.node i).bytes)
    (hcompound : ∀ i, (o₁.node i).compound = (o₂.node i).compound)
    (hparent : ∀ i, (o₁.node i).parent = (o₂.node i).parent) : o₁.Alike o₂ where
  size_eq := hsize
  roots_eq := by
    apply Array.toList_inj.1
    simp only [hl₁.roots_eq, hl₂.roots_eq, hsize, hparent]
  kind_eq := hkind
  bytes_eq := hbytes
  compound_eq := hcompound
  parent_eq := hparent
  children_eq i := by
    apply Array.toList_inj.1
    simp only [hl₁.children_eq, hl₂.children_eq, hsize, hparent]

end Outline

namespace Reduction

variable {r r₁ r₂ : Reduction} {o o₁ o₂ : Outline}

/-- What holds of the blank statement and of every statement of an outline holds of all ids. -/
theorem Shows.forall_node {p : Nat → Prop} (hs : r.Shows r.selection o)
    (hbehind : ∀ i, o.size ≤ i → p i) (hshown : ∀ i x, r.selection[i]? = some x → p i) (i : Nat) :
    p i := by
  rcases Nat.lt_or_ge i o.size with hi | hi
  · obtain ⟨x, hx, -⟩ := hs.exists_node hi
    exact hshown i x hx
  · exact hbehind i hi

/-- Outlines that show alike trees are alike. -/
theorem Alike.outline (h : r₁.Alike r₂) (hs₁ : r₁.Shows r₁.selection o₁)
    (hs₂ : r₂.Shows r₂.selection o₂) (hl₁ : o₁.Linked) (hl₂ : o₂.Linked) : o₁.Alike o₂ := by
  have hsize : o₁.size = o₂.size := by rw [hs₁.size_eq, hs₂.size_eq, h.selection_eq]
  have hblank : ∀ i, o₁.size ≤ i → o₁.node i = o₂.node i := fun i hi => by
    rw [Outline.node_of_size_le hi, Outline.node_of_size_le (hsize ▸ hi)]
  have hbare : ∀ i x, r₁.selection[i]? = some x → (o₁.node i).kind = (o₂.node i).kind ∧
      (o₁.node i).bytes = (o₂.node i).bytes ∧ (o₁.node i).compound = (o₂.node i).compound ∧
      (o₁.node i).parent = (o₂.node i).parent := by
    intro i x hx₁
    have hx₂ : r₂.selection[i]? = some x := h.selection_eq ▸ hx₁
    obtain ⟨-, -, -, hcompound₁⟩ := Statement.bare_eq_iff.1 (hs₁.bare_eq hx₁)
    obtain ⟨-, -, -, hcompound₂⟩ := Statement.bare_eq_iff.1 (hs₂.bare_eq hx₂)
    refine ⟨?_, ?_, ?_, ?_⟩
    · rw [hs₁.kind_eq hx₁, hs₂.kind_eq hx₂, h.tree.kind_eq]
    · rw [hs₁.bytes_eq hx₁, hs₂.bytes_eq hx₂, h.tree.bytes_eq]
    · rw [hcompound₁, hcompound₂]
      exact h.isCompound_eq x
    · rw [hs₁.parent_eq hx₁, hs₂.parent_eq hx₂, h.ownerId_eq]
  exact hl₁.alike hl₂ hsize
    (hs₁.forall_node (fun i hi => by rw [hblank i hi]) fun i x hx => (hbare i x hx).1)
    (hs₁.forall_node (fun i hi => by rw [hblank i hi]) fun i x hx => (hbare i x hx).2.1)
    (hs₁.forall_node (fun i hi => by rw [hblank i hi]) fun i x hx => (hbare i x hx).2.2.1)
    (hs₁.forall_node (fun i hi => by rw [hblank i hi]) fun i x hx => (hbare i x hx).2.2.2)

/-- An outline copies the spans of a tree, so they measure the bytes where those of the tree do. -/
theorem Shows.measured {encoding : OffsetEncoding} {text : String} (hs : r.Shows r.selection o)
    (ht : r.tree.Measured encoding text) : o.Measured encoding text := by
  unfold Outline.Measured
  refine hs.forall_node ?_ ?_
  · intro i hi
    rw [Outline.node_of_size_le hi]
    exact ⟨Text.atBoundaries_default text, (encoding.measureSpan_default text).symm⟩
  · intro i x hx
    rw [hs.bytes_eq hx, hs.span_eq hx]
    exact ht x

end Reduction

/-! ## Lookups in both -/

namespace Outline

variable {o o₁ o₂ : Outline} {encoding encoding₁ encoding₂ : OffsetEncoding} {text : String}
  {byte : Nat}

/-- At a boundary, bisection in units goes as in bytes, because measuring keeps the order of
boundaries. -/
theorem Measured.ownerAmong_eq (hm : o.Measured encoding text) (hb : Text.IsBoundary text byte)
    (level : Array Nat) : o.ownerAmong level (encoding.unitsBefore text byte) =
      (level[partitionPoint (fun id => (o.node id).bytes.stop ≤ byte) level]?).filter
        fun id => (o.node id).bytes.contains byte := by
  have hstop : ∀ id, ((o.node id).span.stop ≤ encoding.unitsBefore text byte) =
      ((o.node id).bytes.stop ≤ byte) := by
    intro id
    obtain ⟨hbytes, hspan⟩ := hm id
    rw [hspan]
    exact propext (encoding.unitsBefore_le_iff hbytes.2 hb)
  have hcontains : ∀ id, (o.node id).span.contains (encoding.unitsBefore text byte) =
      (o.node id).bytes.contains byte := by
    intro id
    obtain ⟨hbytes, hspan⟩ := hm id
    rw [hspan]
    exact encoding.contains_measureSpan hbytes hb
  simp only [ownerAmong, hstop, hcontains]

namespace Alike

variable (h : o₁.Alike o₂) (hm₁ : o₁.Measured encoding₁ text) (hm₂ : o₂.Measured encoding₂ text)
  (hb : Text.IsBoundary text byte)

include h in
theorem childrenOf_eq (i : Nat) : o₁.childrenOf i = o₂.childrenOf i := by
  rw [childrenOf, childrenOf, h.children_eq, h.size_eq]

include h hm₁ hm₂ hb

theorem ownerAmong_eq (level : Array Nat) :
    o₁.ownerAmong level (encoding₁.unitsBefore text byte) =
      o₂.ownerAmong level (encoding₂.unitsBefore text byte) := by
  rw [hm₁.ownerAmong_eq hb, hm₂.ownerAmong_eq hb]
  simp only [h.bytes_eq]

theorem innermostFrom_eq (i : Nat) :
    o₁.innermostFrom (encoding₁.unitsBefore text byte) i =
      o₂.innermostFrom (encoding₂.unitsBefore text byte) i := by
  induction i using child_induction o₁ with
  | step i ih =>
    have howner := h.ownerAmong_eq hm₁ hm₂ hb (o₁.childrenOf i)
    cases hc : o₁.ownerAmong (o₁.childrenOf i) (encoding₁.unitsBefore text byte) with
    | none =>
      rw [hc, h.childrenOf_eq] at howner
      rw [innermostFrom_of_none hc, innermostFrom_of_none howner.symm]
    | some c =>
      rw [hc, h.childrenOf_eq] at howner
      rw [innermostFrom_of_some hc, innermostFrom_of_some howner.symm]
      exact ih c (mem_of_ownerAmong hc)

/-- **One place, two units.** Lookups at one boundary of the text, in the unit of each outline, find
the same id. -/
theorem locate_eq : o₁.locate (encoding₁.unitsBefore text byte) =
    o₂.locate (encoding₂.unitsBefore text byte) := by
  rw [locate, locate, h.roots_eq, h.ownerAmong_eq hm₁ hm₂ hb,
    funext (h.innermostFrom_eq hm₁ hm₂ hb)]

end Alike

end Outline

end StatementOutline
