import StatementOutline.Proofs.Outline.Links
import StatementOutline.Proofs.Outline.Trail
import StatementOutline.Proofs.SyntaxTree.Nesting

/-!
# What a full walk keeps

A walk that nothing stops succeeds, and its outline shows exactly the selected nodes of the tree
(`outline_shows_selection`): those that are statements in scope and have nothing but open nodes in
scope above them. They are numbered depth first, copied from the tree, and hang below the nearest
ancestor that is a statement. Spans play no part in this beyond the test of scope, so nothing is
asked of them; when they are nested, a node in scope has all its ancestors in scope.
-/

namespace StatementOutline.Reduction

variable {r : Reduction} {w : Walk} {o : Outline} {a i k : Nat}

/-! ## The statements that are pushed -/

/-- The compound flag that the verdict on node `i` gives. -/
def isCompound (r : Reduction) (i : Nat) : Bool :=
  match r.table.verdict r.tree i with
  | .statement compound _ => compound
  | .skip | .sealed => false

theorem verdict_of_isStatement (h : r.isStatement i = true) :
    ∃ descend, r.table.verdict r.tree i = .statement (r.isCompound i) descend := by
  unfold isStatement at h
  unfold isCompound
  cases hv : r.table.verdict r.tree i with
  | skip => rw [hv] at h; cases h
  | sealed => rw [hv] at h; cases h
  | statement compound descend => exact ⟨descend, rfl⟩

/-- Node `i` as it is pushed, under its owner and without children. -/
def entry (r : Reduction) (i : Nat) : Statement :=
  let node := r.tree.node i
  ⟨node.kind, node.span, node.bytes, r.isCompound i, r.ownerId i, #[]⟩

theorem seesSignal_never (hn : r.signal = .never) (w : Walk) : r.seesSignal w = false := by
  simp [seesSignal, hn, StopSignal.isSet]

/-- With no signal, entering a node pushes it if it is a statement in scope and does nothing else to
the outline. -/
theorem enter_never (hn : r.signal = .never) (hw : w.stopped = false) (i : Nat) :
    (r.enter w i).stopped = false ∧ (r.enter w i).outline =
      if r.isKept i then w.outline.push (r.entry i) else w.outline := by
  unfold enter
  rw [if_neg (by simp [hw]), if_neg (by simp [seesSignal_never hn])]
  split
  · next hscope =>
    rw [Bool.not_eq_true'] at hscope
    simp [isKept, hscope, Walk.count, hw]
  · next hscope =>
    rw [Bool.not_eq_true, Bool.not_eq_false'] at hscope
    unfold isKept isStatement entry isCompound
    cases hv : r.table.verdict r.tree i with
    | skip => simp [hscope, Walk.count, hw]
    | sealed => simp [hscope, Walk.count, hw]
    | statement compound descend => simp [hscope, Walk.count, Walk.push, hw]

/-- With no signal, entering nodes one after the other pushes those that are kept. -/
theorem foldl_enter_never (hn : r.signal = .never) (hw : w.stopped = false) (l : List Nat) :
    (l.foldl r.enter w).stopped = false ∧
      (l.foldl r.enter w).outline = w.outline.pushAll ((l.filter r.isKept).map r.entry) := by
  induction l generalizing w with
  | nil => exact ⟨hw, rfl⟩
  | cons i l ih =>
    obtain ⟨hstop, hout⟩ := enter_never hn hw i
    obtain ⟨hstop', hout'⟩ := ih hstop
    refine ⟨hstop', ?_⟩
    rw [List.foldl_cons, hout', hout]
    cases hk : r.isKept i with
    | true => rw [if_pos rfl, List.filter_cons_of_pos hk]; rfl
    | false => rw [if_neg (by simp), List.filter_cons_of_neg (by simp [hk])]

/-- With no signal to stop, the outline comes of pushing the selected nodes in order. -/
theorem outline_eq_pushAll (hn : r.signal = .never) :
    r.outline = .ok (Outline.pushAll {} (r.selection.map r.entry)) := by
  obtain ⟨hstop, hout⟩ := foldl_enter_never hn (w := {}) rfl r.trail
  rw [outline, walk_eq_foldl_enter, hstop, hout, ← selection_eq_filter_trail]
  rfl

/-- The owner of a node is selected, and comes before it. -/
theorem ownerId_lt (hk : r.selection[k]? = some i) (ha : r.holder? i = some a) :
    r.selection[r.selection.idxOf a]? = some a ∧ r.selection.idxOf a < k := by
  have hi : r.Selected i := mem_selection.1 (List.mem_of_getElem? hk)
  have hsel : a ∈ r.selection := mem_selection.2 (selected_of_holder? hi.1 ha)
  have hget : r.selection[r.selection.idxOf a]? = some a := by
    rw [List.getElem?_eq_getElem (List.idxOf_lt_length_of_mem hsel), List.getElem_idxOf]
  exact ⟨hget, SyntaxTree.index_lt_of_mem_ancestors r.pairwise_selection hget hk
    (List.mem_of_find?_eq_some ha)⟩

/-- The selected nodes can be pushed in order: the owner of each is there when its turn comes. -/
theorem attachable_entries (r : Reduction) : Outline.Attachable 0 (r.selection.map r.entry) := by
  intro k s hs
  rw [List.getElem?_map] at hs
  obtain ⟨i, hi, rfl⟩ := Option.map_eq_some_iff.1 hs
  refine ⟨rfl, fun p hp => ?_⟩
  obtain ⟨a, ha, rfl⟩ := Option.map_eq_some_iff.1 (show r.ownerId i = some p from hp)
  rw [Nat.zero_add]
  exact (ownerId_lt hi ha).2

/-! ## The outline of the selected nodes -/

/-- Outline `o` shows the nodes `ids`: statement `k` is a copy of node `ids[k]`, compound as the
verdict on it says, and its parent is the statement of the nearest ancestor that is one. -/
structure Shows (r : Reduction) (ids : List Nat) (o : Outline) : Prop where
  size_eq : o.size = ids.length
  kind_eq : ∀ {k i}, ids[k]? = some i → (o.node k).kind = (r.tree.node i).kind
  span_eq : ∀ {k i}, ids[k]? = some i → (o.node k).span = (r.tree.node i).span
  bytes_eq : ∀ {k i}, ids[k]? = some i → (o.node k).bytes = (r.tree.node i).bytes
  verdict : ∀ {k i}, ids[k]? = some i →
    ∃ descend, r.table.verdict r.tree i = .statement (o.node k).compound descend
  parent_none : ∀ {k i}, ids[k]? = some i → r.holder? i = none → (o.node k).parent = none
  parent_some : ∀ {k i a}, ids[k]? = some i → r.holder? i = some a →
    ∃ m, ids[m]? = some a ∧ (o.node k).parent = some m

/-- Pushing the selected nodes in order makes an outline that shows them. -/
theorem shows_pushAll (r : Reduction) :
    r.Shows r.selection (Outline.pushAll {} (r.selection.map r.entry)) := by
  have hlength := Outline.size_pushAll (o := {}) (r.selection.map r.entry)
  have hentry : ∀ {k i}, r.selection[k]? = some i →
      ((Outline.pushAll {} (r.selection.map r.entry)).node k).bare = (r.entry i).bare ∧
        ((Outline.pushAll {} (r.selection.map r.entry)).node k).parent = r.ownerId i := by
    intro k i hk
    have := Outline.pushAll_getElem (o := {}) (k := k) (s := r.entry i) r.attachable_entries
      (by rw [List.getElem?_map, hk]; rfl)
    rwa [show Outline.size {} = 0 from rfl, Nat.zero_add] at this
  generalize Outline.pushAll {} (r.selection.map r.entry) = o at hlength hentry
  simp only [Statement.bare_eq_iff] at hentry
  refine ⟨?_, ?_, ?_, ?_, ?_, ?_, ?_⟩
  · rw [hlength, List.length_map]
    exact Nat.zero_add _
  · intro k i hk
    exact (hentry hk).1.1
  · intro k i hk
    exact (hentry hk).1.2.1
  · intro k i hk
    exact (hentry hk).1.2.2.1
  · intro k i hk
    have hsel : r.Selected i := mem_selection.1 (List.mem_of_getElem? hk)
    obtain ⟨descend, hv⟩ := verdict_of_isStatement hsel.2.2
    exact ⟨descend, (hentry hk).1.2.2.2 ▸ hv⟩
  · intro k i hk ha
    rw [(hentry hk).2, ownerId, ha]
    rfl
  · intro k i a hk ha
    refine ⟨r.selection.idxOf a, (ownerId_lt hk ha).1, ?_⟩
    rw [(hentry hk).2, ownerId, ha]
    rfl

/-- A walk that nothing stops ends in an outline that shows the selection, with links that agree. -/
theorem exists_outline (hn : r.signal = .never) :
    ∃ o, r.outline = .ok o ∧ r.Shows r.selection o ∧ o.Linked :=
  ⟨_, outline_eq_pushAll hn, r.shows_pushAll, Outline.Linked.empty.pushAll r.attachable_entries⟩

theorem inScope_of_mem_ancestors (h : r.tree.ChildrenInside) (hi : r.inScope i = true)
    (ha : a ∈ r.tree.ancestors i) : r.inScope a = true :=
  Span.inScope_of_encloses (h.encloses ha) hi

/-- **What a full walk keeps.** A walk that nothing stops succeeds, and its outline shows, depth
first and each once, the nodes of the tree that are statements in scope below open nodes in
scope. -/
theorem outline_shows_selection (hn : r.signal = .never) :
    ∃ o, r.outline = .ok o ∧ r.Shows r.selection o ∧ r.selection.Nodup ∧
      r.selection.Pairwise r.tree.Precedes ∧
      (∀ i, i ∈ r.selection ↔ r.tree.Rooted i ∧
        (r.inScope i = true ∧ ∀ a ∈ r.tree.ancestors i, r.inScope a = true) ∧
        r.isStatement i = true ∧ ∀ a ∈ r.tree.ancestors i, r.isOpen a = true) ∧
      (r.tree.ChildrenInside → ∀ i, r.inScope i = true →
        ∀ a ∈ r.tree.ancestors i, r.inScope a = true) := by
  obtain ⟨o, ho, hshows, -⟩ := exists_outline hn
  refine ⟨o, ho, hshows, r.pairwise_selection.imp SyntaxTree.Precedes.ne, r.pairwise_selection,
    fun i => ?_, fun h i hi a ha => inScope_of_mem_ancestors h hi ha⟩
  rw [mem_selection]
  constructor
  · rintro ⟨⟨hroot, habove⟩, hscope, hstatement⟩
    exact ⟨hroot, ⟨hscope, fun a ha => (habove a ha).1⟩, hstatement, fun a ha => (habove a ha).2⟩
  · rintro ⟨hroot, ⟨hscope, hscopes⟩, hstatement, hopens⟩
    exact ⟨⟨hroot, fun a ha => ⟨hscopes a ha, hopens a ha⟩⟩, hscope, hstatement⟩

/-- A tree in which a call runs over the end of its block, reduced over its first part. -/
def overhanging : Reduction where
  table := ⟨[("block", .compound), ("call", .atomic), ("header", .sealed)], [], [], none⟩
  tree := .ofNodes
    #[⟨"program", none, ⟨0, 20⟩, ⟨0, 20⟩, ⟨0, 0⟩, none⟩,
      ⟨"block", none, ⟨0, 12⟩, ⟨0, 12⟩, ⟨0, 0⟩, some 0⟩,
      ⟨"group", none, ⟨1, 8⟩, ⟨1, 8⟩, ⟨0, 0⟩, some 1⟩,
      ⟨"call", none, ⟨2, 30⟩, ⟨2, 30⟩, ⟨0, 0⟩, some 2⟩,
      ⟨"header", none, ⟨12, 18⟩, ⟨12, 18⟩, ⟨0, 0⟩, some 0⟩,
      ⟨"call", none, ⟨13, 14⟩, ⟨13, 14⟩, ⟨0, 0⟩, some 4⟩,
      ⟨"call", none, ⟨19, 20⟩, ⟨19, 20⟩, ⟨0, 0⟩, some 0⟩,
      ⟨"call", none, ⟨9, 11⟩, ⟨9, 11⟩, ⟨0, 0⟩, some 1⟩] (by decide)
  range := ⟨0, 13⟩

theorem outline_overhanging : overhanging.signal = .never ∧ overhanging.selection = [1, 3, 7] ∧
    ∃ o, overhanging.outline = .ok o ∧ overhanging.Shows [1, 3, 7] o := by
  have hselection : overhanging.selection = [1, 3, 7] := by decide +kernel
  obtain ⟨o, ho, hshows, -⟩ := outline_shows_selection (r := overhanging) rfl
  exact ⟨rfl, hselection, o, ho, hselection ▸ hshows⟩

end StatementOutline.Reduction
