import StatementOutline.Proofs.Outline.Nesting
import StatementOutline.Proofs.Outline.Selection
import StatementOutline.Proofs.SyntaxTree.Listing

/-!
# Outlines of nested trees

Reducing a nested tree gives a nested outline (`Shows.nested`). Siblings of an outline can come from
nodes of different depths, since nodes that are looked through drop out between them. What carries
the order over is that of two nodes in depth-first order the first lies above the second or stops
before it, and a statement above the second would be its nearer parent.

With what a listing keeps of its tree (`SyntaxTree.ofRows_nested`) this goes from the text and the
grammar's nodes to the statements in one step (`outline_nested_of_placed`).
-/

namespace StatementOutline.Reduction

variable {r : Reduction} {o : Outline} {a b i j k p x y z : Nat}

/-- A statement above a node stands at or above the owner of the node. -/
theorem under_holder? (hx : x ∈ r.tree.ancestors y) (hs : r.isStatement x = true) :
    ∃ z, r.holder? y = some z ∧ Under r.tree.parent? x z := by
  induction y using Nat.strongRecOn with
  | ind y ih =>
    obtain ⟨p, hp, hxp⟩ := (mem_climb r.tree.falling).1 hx
    rw [holder?_child (SyntaxTree.mem_children.2 hp)]
    cases hps : r.isStatement p with
    | true => exact ⟨p, rfl, hxp.imp_left Eq.symm⟩
    | false =>
      rcases hxp with rfl | hxp
      · rw [hs] at hps
        cases hps
      · exact ih p (SyntaxTree.parent_lt hp).1 hxp

/-- No statement lies above a node that has the same owner. -/
theorem not_mem_ancestors_of_holder? (hs : r.isStatement x = true)
    (h : r.holder? x = r.holder? y) : x ∉ r.tree.ancestors y := by
  intro hx
  obtain ⟨z, hz, hxz⟩ := under_holder? hx hs
  have hzx : z < x := SyntaxTree.lt_of_mem_ancestors (List.mem_of_find?_eq_some (h.trans hz))
  rcases hxz with rfl | hxz
  · exact Nat.lt_irrefl _ hzx
  · exact Nat.lt_asymm hzx (SyntaxTree.lt_of_mem_ancestors hxz)

theorem Shows.exists_node (hs : r.Shows r.selection o) (hk : k < o.size) :
    ∃ x, r.selection[k]? = some x ∧ r.Selected x := by
  rw [hs.size_eq] at hk
  exact ⟨r.selection[k], List.getElem?_eq_getElem hk, mem_selection.1 (List.getElem_mem hk)⟩

/-- The owner of a shown node, read back from the parent of its statement. -/
theorem Shows.holder?_eq (hs : r.Shows r.selection o) (hk : r.selection[k]? = some x) :
    r.holder? x = (o.node k).parent.bind fun m => r.selection[m]? := by
  cases hx : r.holder? x with
  | none => rw [hs.parent_none hk hx]; rfl
  | some a =>
    obtain ⟨m, hm, hp⟩ := hs.parent_some hk hx
    rw [hp, Option.bind_some, hm]

/-- The parent of a shown node's statement is the number of its owner among the selected nodes. -/
theorem Shows.parent_eq (hs : r.Shows r.selection o) (hk : r.selection[k]? = some x) :
    (o.node k).parent = r.ownerId x := by
  unfold ownerId
  cases hx : r.holder? x with
  | none => exact hs.parent_none hk hx
  | some a =>
    obtain ⟨m, hm, hp⟩ := hs.parent_some hk hx
    obtain ⟨hlt, rfl⟩ := List.getElem?_eq_some_iff.1 hm
    rw [hp, Option.map_some, r.nodup_selection.idxOf_getElem m hlt]

/-- Statements with one parent lie below different nodes, of which the first ends before the second
begins. -/
theorem Shows.before_of_parent_eq (hs : r.Shows r.selection o) (ht : r.tree.Nested)
    (hab : a < b) (hb : b < o.size) (hp : (o.node a).parent = (o.node b).parent) :
    (o.node a).span.Before (o.node b).span := by
  obtain ⟨x, hx, hxs⟩ := hs.exists_node (Nat.lt_trans hab hb)
  obtain ⟨y, hy, -⟩ := hs.exists_node hb
  have hholder : r.holder? x = r.holder? y := by
    rw [hs.holder?_eq hx, hs.holder?_eq hy, hp]
  rw [hs.span_eq hx, hs.span_eq hy]
  rcases ht.before_of_precedes (precedes_of_lt hx hy hab) with habove | hbefore
  · exact absurd habove (not_mem_ancestors_of_holder? hxs.2.2 hholder)
  · exact hbefore

/-- An outline of a nested tree is nested, although nodes between a statement and its parent are
left out. -/
theorem Shows.nested (hs : r.Shows r.selection o) (hl : o.Linked) (ht : r.tree.Nested) :
    o.Nested := by
  refine ⟨?_, ?_, ?_, ?_⟩
  · intro i hi
    obtain ⟨x, hx, hxs⟩ := hs.exists_node hi
    rw [hs.span_eq hx]
    exact ht.start_le_stop x hxs.1.1.1
  · intro i p hp
    obtain ⟨x, hx, -⟩ := hs.exists_node (Outline.lt_size_of_parent hp)
    have hlt : p < o.size := Nat.lt_trans (hl.parent_lt hp) (Outline.lt_size_of_parent hp)
    obtain ⟨z, hz, -⟩ := hs.exists_node hlt
    have hholder : r.holder? x = some z := by rw [hs.holder?_eq hx, hp, Option.bind_some, hz]
    rw [hs.span_eq hx, hs.span_eq hz]
    exact ht.inside.encloses (List.mem_of_find?_eq_some hholder)
  · rw [hl.roots_eq]
    exact Outline.isChain_filter_parent fun a b hab hb ha hb' =>
      hs.before_of_parent_eq ht hab hb (ha.trans hb'.symm)
  · intro i
    rw [hl.children_eq]
    exact Outline.isChain_filter_parent fun a b hab hb ha hb' =>
      hs.before_of_parent_eq ht hab hb (ha.trans hb'.symm)

/-- **Outlines are nested, from the listing on.** Whatever the text, the unit, the rules and the
range: if a grammar places its nodes one inside the other and side by side, on boundaries of the
text, so are the statements of the outline in the unit. -/
theorem outline_nested_of_placed {text : String} {forest : Siblings} (encoding : OffsetEncoding)
    (hp : forest.Placed text ⟨0, text.utf8ByteSize⟩)
    (ht : r.tree = .ofRows (.ofText encoding text) (forest.rows 0)) (hn : r.signal = .never) :
    ∃ o, r.outline = .ok o ∧ r.Shows r.selection o ∧ o.LinksAgree ∧ o.Nested := by
  have hnested : r.tree.Nested := by
    rw [ht]
    exact SyntaxTree.ofRows_nested encoding hp
  obtain ⟨o, ho, hs, hl⟩ := exists_outline hn
  exact ⟨o, ho, hs, hl.linksAgree, hs.nested hl hnested⟩

/-- The tree of `é = 1; (t)`, with the tokens of the parentheses and a group around the call
anonymous. -/
def accented : Siblings :=
  .cons ⟨0, true, "program", none, ⟨0, 11⟩, ⟨0, 0⟩⟩
    (.cons ⟨0, true, "assignment", none, ⟨0, 7⟩, ⟨0, 0⟩⟩
      (.cons ⟨0, true, "identifier", none, ⟨0, 2⟩, ⟨0, 0⟩⟩ .nil .nil)
      (.cons ⟨0, true, "block", none, ⟨8, 11⟩, ⟨0, 0⟩⟩
        (.cons ⟨0, false, "(", none, ⟨8, 9⟩, ⟨0, 0⟩⟩ .nil
          (.cons ⟨0, false, "group", none, ⟨9, 10⟩, ⟨0, 0⟩⟩
            (.cons ⟨0, true, "call", none, ⟨9, 10⟩, ⟨0, 0⟩⟩ .nil .nil)
            (.cons ⟨0, false, ")", none, ⟨10, 11⟩, ⟨0, 0⟩⟩ .nil .nil)))
        .nil))
    .nil

theorem accented_placed : accented.Placed "é = 1; (t)" ⟨0, "é = 1; (t)".utf8ByteSize⟩ := by
  decide

/-- Blocks hold statements; assignments and calls do not. -/
def plainTable : RuleTable :=
  ⟨[("block", .compound), ("assignment", .atomic), ("call", .atomic)], [], [], none⟩

/-- The reduction of `é = 1; (t)` in a unit over a range. -/
def accentedOver (encoding : OffsetEncoding) (range : Span) : Reduction where
  table := plainTable
  tree := .ofRows (.ofText encoding "é = 1; (t)") (accented.rows 0)
  range := range

/-- What stands in `é = 1; (t)`, in characters. -/
def accentedOutline : Outline where
  nodes := #[⟨"assignment", ⟨0, 6⟩, ⟨0, 7⟩, false, none, #[]⟩,
    ⟨"block", ⟨7, 10⟩, ⟨8, 11⟩, true, none, #[2]⟩, ⟨"call", ⟨8, 9⟩, ⟨9, 10⟩, false, some 1, #[]⟩]
  roots := #[0, 1]

/-- What stands around the call in `é = 1; (t)`, in characters. -/
def accentedCall : Outline where
  nodes := #[⟨"block", ⟨7, 10⟩, ⟨8, 11⟩, true, none, #[1]⟩,
    ⟨"call", ⟨8, 9⟩, ⟨9, 10⟩, false, some 0, #[]⟩]
  roots := #[0]

theorem outline_accented_whole : (accentedOver .char ⟨0, 10⟩).outline = .ok accentedOutline := by
  decide +kernel

theorem outline_nested_accented :
    accented.Placed "é = 1; (t)" ⟨0, "é = 1; (t)".utf8ByteSize⟩ ∧
    (accentedOver .utf16 ⟨0, 10⟩).selection = [1, 3, 4] ∧
    ∃ o, (accentedOver .utf16 ⟨0, 10⟩).outline = .ok o ∧
      (accentedOver .utf16 ⟨0, 10⟩).Shows [1, 3, 4] o ∧ o.LinksAgree ∧ o.Nested := by
  have hselection : (accentedOver .utf16 ⟨0, 10⟩).selection = [1, 3, 4] := by decide +kernel
  obtain ⟨o, ho, hs, h⟩ := outline_nested_of_placed .utf16 accented_placed
    (show (accentedOver .utf16 ⟨0, 10⟩).tree = _ from rfl) rfl
  exact ⟨accented_placed, hselection, o, ho, hselection ▸ hs, h⟩

end StatementOutline.Reduction
