import StatementOutline.Proofs.Outline.Location
import StatementOutline.Proofs.Outline.Order

/-!
# Lookups do not depend on the requested range

Two outlines of one nested tree, reduced over different ranges, differ in ids, siblings and roots.
At an offset that lies in both ranges a lookup finds the same statement in them, with the same
statements around it (`line_eq_of_ranges`). A node that owns the offset is in scope of every range
that covers it, and so is everything above it; whether it is selected then depends on the rules
alone. The owners of the offset are therefore copies of the same nodes, and a lookup is determined
by the owners.
-/

namespace StatementOutline

/-- The range covers the offset: the offset lies in it, or is where an empty range stands. -/
def Span.Covers (range : Span) (offset : Nat) : Prop :=
  range.start ≤ offset ∧ offset < range.stop ∨ range.start = offset ∧ offset = range.stop

instance (range : Span) (offset : Nat) : Decidable (range.Covers offset) :=
  inferInstanceAs (Decidable
    (range.start ≤ offset ∧ offset < range.stop ∨ range.start = offset ∧ offset = range.stop))

/-- What contains an offset is in scope of every range that covers it. -/
theorem Span.inScope_of_contains {s range : Span} {offset : Nat} (hs : s.contains offset = true)
    (hr : range.Covers offset) : s.inScope range = true := by
  rw [Span.contains_iff] at hs
  rw [Span.inScope_iff]
  unfold Span.Covers at hr
  omega

/-- Statement `i` and those around it, innermost first, without their links. -/
def Outline.lineOf (o : Outline) (i : Nat) : List Statement :=
  (i :: o.ancestors i).map fun a => (o.node a).bare

namespace Reduction

variable {r r₁ r₂ : Reduction} {o o₁ o₂ : Outline} {offset i k x : Nat}

theorem Shows.bare_eq (hs : r.Shows r.selection o) (hk : r.selection[k]? = some x) :
    (o.node k).bare = (r.entry x).bare := by
  obtain ⟨descend, hv⟩ := hs.verdict hk
  have hcompound : r.isCompound x = (o.node k).compound := by simp [isCompound, hv]
  exact Statement.bare_eq_iff.2
    ⟨hs.kind_eq hk, hs.span_eq hk, hs.bytes_eq hk, hcompound.symm⟩

theorem map_filter_range {α β : Type} {l : List α} {p : Nat → Bool} {q : α → Bool} {f : Nat → β}
    {g : α → β} (h : ∀ k x, l[k]? = some x → p k = q x ∧ f k = g x) :
    ((List.range l.length).filter p).map f = (l.filter q).map g := by
  induction l using List.reverseRecOn with
  | nil => rfl
  | append_singleton l x ih =>
    have hx := h l.length x (by simp)
    have ih := ih fun k y hk => h k y (List.getElem?_append_left
      (List.getElem?_eq_some_iff.1 hk).1 ▸ hk)
    rw [List.length_append, List.length_singleton, List.range_succ, List.filter_append,
      List.filter_append, List.map_append, List.map_append, ih]
    congr 1
    cases hq : q x with
    | true => simp [hx.1, hx.2, hq]
    | false => simp [hx.1, hq]

/-- The owners of an offset are copies of the selected nodes that own it. -/
theorem Shows.map_owners (hs : r.Shows r.selection o) (offset : Nat) :
    (o.owners offset).map (fun k => (o.node k).bare) =
      (r.selection.filter fun x => (r.tree.node x).span.contains offset).map
        fun x => (r.entry x).bare := by
  rw [Outline.owners, hs.size_eq]
  apply map_filter_range
  intro k x hk
  rw [hs.span_eq hk]
  exact ⟨rfl, hs.bare_eq hk⟩

/-- Whether a node that owns the offset is selected depends on the rules alone. -/
theorem selected_iff_of_contains (ht : r.tree.ChildrenInside) (hr : r.range.Covers offset)
    (hx : (r.tree.node x).span.contains offset = true) :
    r.Selected x ↔ r.tree.Rooted x ∧ (∀ a ∈ r.tree.ancestors x, r.isOpen a = true) ∧
      r.isStatement x = true := by
  have hscope : r.inScope x = true := Span.inScope_of_contains hx hr
  constructor
  · rintro ⟨⟨hroot, habove⟩, -, hstatement⟩
    exact ⟨hroot, fun a ha => (habove a ha).2, hstatement⟩
  · rintro ⟨hroot, hopen, hstatement⟩
    exact ⟨⟨hroot, fun a ha => ⟨inScope_of_mem_ancestors ht hscope ha, hopen a ha⟩⟩, hscope,
      hstatement⟩

section TwoRanges

variable (htable : r₁.table = r₂.table) (htree : r₁.tree = r₂.tree)

include htable htree

theorem isStatement_congr (x : Nat) : r₁.isStatement x = r₂.isStatement x := by
  rw [isStatement, isStatement, htable, htree]

theorem isOpen_congr (x : Nat) : r₁.isOpen x = r₂.isOpen x := by
  rw [isOpen, isOpen, htable, htree]

theorem bare_entry_congr (x : Nat) : (r₁.entry x).bare = (r₂.entry x).bare := by
  simp only [Statement.bare_eq_iff, entry, isCompound, htable, htree, and_self]

/-- The selected nodes that contain a covered offset do not depend on the range: they and all above
them are in scope either way. -/
theorem filter_selection_eq (ht : r₁.tree.ChildrenInside) (h₁ : r₁.range.Covers offset)
    (h₂ : r₂.range.Covers offset) :
    r₁.selection.filter (fun x => (r₁.tree.node x).span.contains offset) =
      r₂.selection.filter fun x => (r₂.tree.node x).span.contains offset := by
  have ht₂ : r₂.tree.ChildrenInside := htree ▸ ht
  rw [selection, selection, List.filter_filter, List.filter_filter, htree]
  apply List.filter_congr
  intro x _
  cases hx : (r₂.tree.node x).span.contains offset with
  | false => rfl
  | true =>
    have hx₁ : (r₁.tree.node x).span.contains offset = true := by rw [htree, hx]
    rw [Bool.true_and, Bool.true_and, decide_eq_decide, selected_iff_of_contains ht h₁ hx₁,
      selected_iff_of_contains ht₂ h₂ hx, isStatement_congr htable htree]
    simp only [isOpen_congr htable htree, htree]

/-- Both outlines list copies of the same nodes as the owners of the offset. -/
theorem map_owners_eq (hs₁ : r₁.Shows r₁.selection o₁) (hs₂ : r₂.Shows r₂.selection o₂)
    (ht : r₁.tree.ChildrenInside) (h₁ : r₁.range.Covers offset) (h₂ : r₂.range.Covers offset) :
    (o₁.owners offset).map (fun k => (o₁.node k).bare) =
      (o₂.owners offset).map fun k => (o₂.node k).bare := by
  rw [hs₁.map_owners, hs₂.map_owners, filter_selection_eq htable htree ht h₁ h₂]
  exact List.map_congr_left fun x _ => bare_entry_congr htable htree x

end TwoRanges

end Reduction

/-- A lookup is determined by the owners of the offset. -/
theorem Outline.reverse_map_owners {o : Outline} (hl : o.LinksAgree) (hn : o.Nested)
    (offset : Nat) : ((o.owners offset).map fun k => (o.node k).bare).reverse =
      ((o.locate offset).map o.lineOf).getD [] := by
  rw [owners_eq_reverse hl hn, List.map_reverse, List.reverse_reverse]
  cases o.locate offset with
  | none => rfl
  | some i => rfl

namespace Reduction

/-- **Lookups do not depend on the range.** Reduce one nested tree by one table over two ranges that
both cover an offset: the lookups of the offset in the two outlines both find nothing, or find
statements that agree, and so do those around them one by one, in everything but their links. -/
theorem line_eq_of_ranges (r₁ r₂ : Reduction) (htable : r₁.table = r₂.table)
    (htree : r₁.tree = r₂.tree) (hn₁ : r₁.signal = .never) (hn₂ : r₂.signal = .never)
    (ht : r₁.tree.Nested) {offset : Nat} (h₁ : r₁.range.Covers offset)
    (h₂ : r₂.range.Covers offset) :
    ∃ o₁ o₂, r₁.outline = .ok o₁ ∧ r₂.outline = .ok o₂ ∧
      (o₁.locate offset).map o₁.lineOf = (o₂.locate offset).map o₂.lineOf := by
  obtain ⟨o₁, ho₁, hs₁, hl₁⟩ := exists_outline hn₁
  obtain ⟨o₂, ho₂, hs₂, hl₂⟩ := exists_outline hn₂
  have ht₂ : r₂.tree.Nested := htree ▸ ht
  have howners := map_owners_eq htable htree hs₁ hs₂ ht.inside h₁ h₂
  have hlines : ((o₁.locate offset).map o₁.lineOf).getD [] =
      ((o₂.locate offset).map o₂.lineOf).getD [] := by
    rw [← Outline.reverse_map_owners hl₁.linksAgree (hs₁.nested hl₁ ht), howners,
      Outline.reverse_map_owners hl₂.linksAgree (hs₂.nested hl₂ ht₂)]
  refine ⟨o₁, o₂, ho₁, ho₂, ?_⟩
  cases hi₁ : o₁.locate offset with
  | none =>
    cases hi₂ : o₂.locate offset with
    | none => rfl
    | some i₂ => rw [hi₁, hi₂] at hlines; cases hlines
  | some i₁ =>
    cases hi₂ : o₂.locate offset with
    | none => rw [hi₁, hi₂] at hlines; cases hlines
    | some i₂ =>
      rw [hi₁, hi₂] at hlines
      exact congrArg some hlines

theorem line_eq_accented : (accentedOver .char ⟨0, 10⟩).tree.Nested ∧ Span.Covers ⟨0, 10⟩ 8 ∧
    Span.Covers ⟨8, 8⟩ 8 ∧ (accentedOver .char ⟨0, 10⟩).selection = [1, 3, 4] ∧
    (accentedOver .char ⟨8, 8⟩).selection = [3, 4] ∧
    (accentedOver .char ⟨0, 10⟩).outline = .ok accentedOutline ∧
    (accentedOver .char ⟨8, 8⟩).outline = .ok accentedCall ∧
    (accentedOutline.locate 8 = some 2 ∧ (accentedOutline.node 2).kind = "call") ∧
    (accentedCall.locate 8 = some 1 ∧ (accentedCall.node 1).kind = "call") ∧
    (accentedOutline.locate 8).map accentedOutline.lineOf =
      (accentedCall.locate 8).map accentedCall.lineOf := by
  have hnested : (accentedOver .char ⟨0, 10⟩).tree.Nested :=
    SyntaxTree.ofRows_nested .char accented_placed
  have hwhole : Span.Covers ⟨0, 10⟩ 8 := by decide
  have hcursor : Span.Covers ⟨8, 8⟩ 8 := by decide
  have hcall : (accentedOver .char ⟨8, 8⟩).outline = .ok accentedCall := by decide +kernel
  obtain ⟨o₁, o₂, ho₁, ho₂, hline⟩ := line_eq_of_ranges (accentedOver .char ⟨0, 10⟩)
    (accentedOver .char ⟨8, 8⟩) rfl rfl rfl rfl hnested hwhole hcursor
  rw [outline_accented_whole] at ho₁
  rw [hcall] at ho₂
  cases ho₁
  cases ho₂
  exact ⟨hnested, hwhole, hcursor, by decide +kernel, by decide +kernel, outline_accented_whole,
    hcall, ⟨by decide +kernel, rfl⟩, ⟨by decide +kernel, rfl⟩, hline⟩

end Reduction

end StatementOutline
