import StatementOutline.Proofs.Outline.RangeIndependence

/-!
# Narrowing the range

To reduce over a smaller range is to take out of the outline over the larger one what does not
overlap the smaller (`outline_eq_restrict`). `restrict` takes statements out of a finished outline
and closes the gaps in the numbering; the walk over the smaller range never comes to what lies below
a node out of scope, whether that node is a statement or not. The two agree because on a nested tree
whatever lies around a node in scope is in scope, and no verdict looks at the range.

Nothing here is said of an empty range: it is enclosed by statements that it does not overlap.
-/

namespace StatementOutline

namespace Outline

variable {o o' : Outline} {keep : Statement → Bool} {i m : Nat}

/-- The ids of the statements to keep, in order. -/
def keptIds (o : Outline) (keep : Statement → Bool) : List Nat :=
  (List.range o.size).filter fun i => keep (o.node i)

/-- The number of a kept statement among those kept. -/
def rank (o : Outline) (keep : Statement → Bool) (i : Nat) : Nat :=
  (o.keptIds keep).idxOf i

/-- Statement `i` with its links renumbered, and without the children that are not kept. -/
def renumbered (o : Outline) (keep : Statement → Bool) (i : Nat) : Statement :=
  { o.node i with
    parent := (o.node i).parent.map (o.rank keep)
    children := ((o.node i).children.filter fun c => keep (o.node c)).map (o.rank keep) }

/-- The outline without the statements that are not kept, the others renumbered in order. -/
def restrict (o : Outline) (keep : Statement → Bool) : Outline where
  nodes := ((o.keptIds keep).map (o.renumbered keep)).toArray
  roots := (o.roots.filter fun i => keep (o.node i)).map (o.rank keep)

theorem mem_keptIds : i ∈ o.keptIds keep ↔ i < o.size ∧ keep (o.node i) = true := by
  simp [keptIds]

theorem rank_eq (h : (o.keptIds keep)[m]? = some i) : o.rank keep i = m := by
  obtain ⟨hm, rfl⟩ := List.getElem?_eq_some_iff.1 h
  exact (List.nodup_range.filter _).idxOf_getElem m hm

theorem getElem?_rank (h : i ∈ o.keptIds keep) : (o.keptIds keep)[o.rank keep i]? = some i :=
  List.getElem?_idxOf h

@[simp] theorem size_restrict (o : Outline) (keep : Statement → Bool) :
    (o.restrict keep).size = (o.keptIds keep).length := by
  simp [restrict, size]

theorem node_restrict (h : (o.keptIds keep)[m]? = some i) :
    (o.restrict keep).node m = o.renumbered keep i := by
  simp [restrict, node, h]

theorem eq_of_node_eq (hsize : o.size = o'.size) (hnode : ∀ i < o.size, o.node i = o'.node i)
    (hroots : o.roots.toList = o'.roots.toList) : o = o' := by
  have hget : ∀ {u : Outline} {i : Nat} (h : i < u.nodes.size), u.node i = u.nodes[i] := by
    intro u i h
    simp [node, h]
  have hnodes : o.nodes = o'.nodes := by
    apply Array.ext hsize
    intro i h h'
    rw [← hget h, ← hget h']
    exact hnode i h
  cases o
  cases o'
  simp_all

/-- Of two outlines whose links agree, the second holds the kept statements of the first. Its lists
of ids then are the lists of the first without the others. -/
theorem filter_parent_eq_map_rank {q q' : Option Nat} (hsize : o'.size = (o.keptIds keep).length)
    (hq : ∀ m i, (o.keptIds keep)[m]? = some i →
      ((o'.node m).parent = q' ↔ (o.node i).parent = q)) :
    ((List.range o'.size).filter fun m => (o'.node m).parent = q') =
      (((List.range o.size).filter fun i => (o.node i).parent = q).filter
        fun i => keep (o.node i)).map (o.rank keep) := by
  have hmap : ((List.range (o.keptIds keep).length).filter
      fun m => (o'.node m).parent = q').map id =
        ((o.keptIds keep).filter fun i => (o.node i).parent = q).map (o.rank keep) := by
    apply Reduction.map_filter_range
    intro m i hm
    exact ⟨decide_eq_decide.2 (hq m i hm), (rank_eq hm).symm⟩
  rw [List.map_id] at hmap
  rw [hsize, hmap, keptIds, List.filter_comm]

/-- An outline is the restriction of another if it holds the kept statements in order and names
their parents: the lists of children and roots follow. -/
theorem Linked.eq_restrict (h : o.Linked) (h' : o'.Linked)
    (hparent : ∀ i p, keep (o.node i) = true → (o.node i).parent = some p →
      keep (o.node p) = true)
    (hsize : o'.size = (o.keptIds keep).length)
    (hbare : ∀ m i, (o.keptIds keep)[m]? = some i → (o'.node m).bare = (o.node i).bare)
    (hlink : ∀ m i, (o.keptIds keep)[m]? = some i →
      (o'.node m).parent = (o.node i).parent.map (o.rank keep)) :
    o' = o.restrict keep := by
  -- A kept statement keeps its parent, and different ones have different ranks.
  have hsome : ∀ k j m i, (o.keptIds keep)[k]? = some j → (o.keptIds keep)[m]? = some i →
      ((o'.node m).parent = some k ↔ (o.node i).parent = some j) := by
    intro k j m i hk hm
    rw [hlink m i hm, Option.map_eq_some_iff]
    constructor
    · rintro ⟨p, hp, hrank⟩
      have hi := mem_keptIds.1 (List.mem_of_getElem? hm)
      have hpk : p ∈ o.keptIds keep :=
        mem_keptIds.2 ⟨Nat.lt_trans (h.parent_lt hp) hi.1, hparent i p hi.2 hp⟩
      have hget := getElem?_rank hpk
      rw [hrank, hk] at hget
      cases hget
      exact hp
    · intro hp
      exact ⟨j, hp, rank_eq hk⟩
  have hnone : ∀ m i, (o.keptIds keep)[m]? = some i →
      ((o'.node m).parent = none ↔ (o.node i).parent = none) := by
    intro m i hm
    rw [hlink m i hm, Option.map_eq_none_iff]
  apply eq_of_node_eq
  · rw [hsize, size_restrict]
  · intro m hm
    rw [hsize] at hm
    have hi := List.getElem?_eq_getElem hm
    generalize (o.keptIds keep)[m] = i at hi
    have hchildren : (o'.node m).children =
        ((o.node i).children.filter fun c => keep (o.node c)).map (o.rank keep) := by
      apply Array.toList_inj.1
      rw [h'.children_eq, Array.toList_map, Array.toList_filter, h.children_eq]
      exact filter_parent_eq_map_rank hsize fun k j hk => hsome m i k j hi hk
    obtain ⟨hkind, hspan, hbytes, hcompound⟩ := Statement.bare_eq_iff.1 (hbare m i hi)
    rw [node_restrict hi, renumbered, ← hlink m i hi, ← hchildren, ← hkind, ← hspan, ← hbytes,
      ← hcompound]
  · rw [h'.roots_eq, restrict, Array.toList_map, Array.toList_filter, h.roots_eq]
    exact filter_parent_eq_map_rank hsize hnone

end Outline

/-! ## Scope of a smaller range -/

/-- A range that is not empty is overlapped by whatever encloses it. -/
theorem Span.inScope_eq_overlaps {s range : Span} (h : range.start < range.stop) :
    s.inScope range = s.overlaps range := by
  rw [Bool.eq_iff_iff, Span.inScope_iff, Span.overlaps_iff]
  omega

theorem Span.inScope_of_narrower {s inner outer : Span} (hne : inner.start < inner.stop)
    (hr : outer.encloses inner = true) (h : s.inScope inner = true) : s.inScope outer = true := by
  rw [Span.encloses_iff] at hr
  rw [Span.inScope_iff] at *
  omega

theorem Span.overlaps_of_encloses {s u range : Span} (hsu : s.encloses u = true)
    (hu : u.overlaps range = true) : s.overlaps range = true := by
  rw [Span.encloses_iff] at hsu
  rw [Span.overlaps_iff] at *
  omega

namespace Reduction

variable {r₁ r₂ : Reduction} {o₁ o₂ : Outline} {k m x : Nat}

section Narrowed

variable (htable : r₁.table = r₂.table) (htree : r₁.tree = r₂.tree)
  (ht : r₁.tree.ChildrenInside) (hne : r₁.range.start < r₁.range.stop)
  (hr : r₂.range.encloses r₁.range = true)

include htable htree ht hne hr

/-- A narrower range selects, of what the wider one does, the nodes that overlap it. Their ancestors
overlap it as well, as they enclose them. -/
theorem selected_narrower (x : Nat) : r₁.Selected x ↔
    (r₂.tree.node x).span.overlaps r₁.range = true ∧ r₂.Selected x := by
  have hscope : ∀ y, r₁.inScope y = (r₂.tree.node y).span.overlaps r₁.range := fun y => by
    rw [inScope, htree, Span.inScope_eq_overlaps hne]
  have hwider : ∀ y, r₁.inScope y = true → r₂.inScope y = true := fun y hy => by
    rw [inScope, htree] at hy
    exact Span.inScope_of_narrower hne hr hy
  rw [← hscope]
  unfold Selected Reached
  simp only [← isStatement_congr htable htree, ← isOpen_congr htable htree, ← htree]
  constructor
  · rintro ⟨⟨hroot, habove⟩, hx, hstatement⟩
    exact ⟨hx, ⟨hroot, fun a ha => ⟨hwider a (habove a ha).1, (habove a ha).2⟩⟩, hwider x hx,
      hstatement⟩
  · rintro ⟨hx, ⟨hroot, habove⟩, -, hstatement⟩
    exact ⟨⟨hroot, fun a ha => ⟨inScope_of_mem_ancestors ht hx ha, (habove a ha).2⟩⟩, hx,
      hstatement⟩

/-- The selection over the narrower range is a part of the other, in the same order. -/
theorem selection_narrower : r₁.selection =
    r₂.selection.filter fun x => (r₂.tree.node x).span.overlaps r₁.range := by
  rw [selection, selection, List.filter_filter, htree]
  apply List.filter_congr
  intro x _
  rw [Bool.eq_iff_iff, Bool.and_eq_true, decide_eq_true_iff, decide_eq_true_iff]
  exact selected_narrower htable htree ht hne hr x

/-- The statements of the outline over the larger range that overlap the smaller one are copies of
the nodes selected over the smaller one, in the same order. -/
theorem map_keptIds_narrower (hs₂ : r₂.Shows r₂.selection o₂) :
    (o₂.keptIds fun s => s.span.overlaps r₁.range).map (fun k => r₂.selection[k]?) =
      r₁.selection.map some := by
  rw [selection_narrower htable htree ht hne hr, Outline.keptIds, hs₂.size_eq]
  apply map_filter_range
  intro k x hk
  rw [hs₂.span_eq hk]
  exact ⟨rfl, hk⟩

/-- Kept statement `m` of the wider outline and statement `m` of the narrower one show the same
node. -/
theorem getElem?_selection_narrower (hs₂ : r₂.Shows r₂.selection o₂)
    (hm : (o₂.keptIds fun s => s.span.overlaps r₁.range)[m]? = some k) :
    ∃ x, r₂.selection[k]? = some x ∧ r₁.selection[m]? = some x := by
  obtain ⟨x, hx, -⟩ := hs₂.exists_node (Outline.mem_keptIds.1 (List.mem_of_getElem? hm)).1
  have hmap := congrArg (·[m]?) (map_keptIds_narrower htable htree ht hne hr hs₂)
  simp only [List.getElem?_map, hm, Option.map_some, hx] at hmap
  obtain ⟨y, hy, hxy⟩ := Option.map_eq_some_iff.1 hmap.symm
  cases hxy
  exact ⟨x, hx, hy⟩

/-- The owner of a node selected over the smaller range has the rank, among the statements that are
kept, of its statement in the outline over the larger range. -/
theorem ownerId_narrower (hs₂ : r₂.Shows r₂.selection o₂) (hx : r₁.Selected x) :
    r₁.ownerId x =
      (r₂.ownerId x).map (o₂.rank fun s => s.span.overlaps r₁.range) := by
  have hholder : r₁.holder? x = r₂.holder? x := by
    unfold holder?
    rw [htree]
    congr 1
    funext y
    exact isStatement_congr htable htree y
  unfold ownerId
  rw [← hholder, Option.map_map]
  cases ha : r₁.holder? x with
  | none => rfl
  | some a =>
    obtain ⟨hoverlap, hsel⟩ :=
      (selected_narrower htable htree ht hne hr a).1 (selected_of_holder? hx.1 ha)
    have hmem : a ∈ r₂.selection := mem_selection.2 hsel
    have hget : r₂.selection[r₂.selection.idxOf a]? = some a := List.getElem?_idxOf hmem
    have hkept : r₂.selection.idxOf a ∈ o₂.keptIds fun s => s.span.overlaps r₁.range := by
      rw [Outline.mem_keptIds, hs₂.size_eq, hs₂.span_eq hget]
      exact ⟨List.idxOf_lt_length_of_mem hmem, hoverlap⟩
    obtain ⟨y, hy₂, hy₁⟩ := getElem?_selection_narrower htable htree ht hne hr hs₂
      (Outline.getElem?_rank hkept)
    rw [hget] at hy₂
    cases hy₂
    obtain ⟨hrank, hy⟩ := List.getElem?_eq_some_iff.1 hy₁
    have hidx := r₁.nodup_selection.idxOf_getElem _ hrank
    rw [hy] at hidx
    exact congrArg some hidx

end Narrowed

/-- **Narrowing the range is restriction.** Reduce one nested tree by one table over a range that is
not empty and over one around it: the first outline is the second without the statements that do not
overlap the smaller range. A statement that does, has a parent that does, and is found again under
its rank, with its links renumbered and everything else as it was. -/
theorem outline_eq_restrict (r₁ r₂ : Reduction) (htable : r₁.table = r₂.table)
    (htree : r₁.tree = r₂.tree) (hn₁ : r₁.signal = .never) (hn₂ : r₂.signal = .never)
    (ht : r₁.tree.Nested) (hne : r₁.range.start < r₁.range.stop)
    (hr : r₂.range.encloses r₁.range = true) :
    ∃ o₁ o₂, r₁.outline = .ok o₁ ∧ r₂.outline = .ok o₂ ∧
      o₁ = o₂.restrict (fun s => s.span.overlaps r₁.range) ∧
      (∀ i p, (o₂.node i).span.overlaps r₁.range = true → (o₂.node i).parent = some p →
        (o₂.node p).span.overlaps r₁.range = true) ∧
      ∀ i < o₂.size, (o₂.node i).span.overlaps r₁.range = true →
        o₁.node (o₂.rank (fun s => s.span.overlaps r₁.range) i) =
          o₂.renumbered (fun s => s.span.overlaps r₁.range) i := by
  obtain ⟨o₁, ho₁, hs₁, hl₁⟩ := exists_outline hn₁
  obtain ⟨o₂, ho₂, hs₂, hl₂⟩ := exists_outline hn₂
  have hparent : ∀ i p, (o₂.node i).span.overlaps r₁.range = true →
      (o₂.node i).parent = some p → (o₂.node p).span.overlaps r₁.range = true :=
    fun i p hi hp => Span.overlaps_of_encloses ((hs₂.nested hl₂ (htree ▸ ht)).inside i p hp) hi
  have hfound : ∀ m k, (o₂.keptIds fun s => s.span.overlaps r₁.range)[m]? = some k →
      ∃ x, r₂.selection[k]? = some x ∧ r₁.selection[m]? = some x :=
    fun _ _ => getElem?_selection_narrower htable htree ht.inside hne hr hs₂
  have heq : o₁ = o₂.restrict fun s => s.span.overlaps r₁.range := by
    refine hl₂.eq_restrict hl₁ hparent ?_ ?_ ?_
    · have hlength := congrArg List.length
        (map_keptIds_narrower htable htree ht.inside hne hr hs₂)
      rw [List.length_map, List.length_map] at hlength
      rw [hs₁.size_eq, hlength]
    · intro m k hm
      obtain ⟨x, hx₂, hx₁⟩ := hfound m k hm
      rw [hs₁.bare_eq hx₁, hs₂.bare_eq hx₂, bare_entry_congr htable htree]
    · intro m k hm
      obtain ⟨x, hx₂, hx₁⟩ := hfound m k hm
      rw [hs₁.parent_eq hx₁, hs₂.parent_eq hx₂]
      exact ownerId_narrower htable htree ht.inside hne hr hs₂
        (mem_selection.1 (List.mem_of_getElem? hx₁))
  refine ⟨o₁, o₂, ho₁, ho₂, heq, hparent, fun i hi hkeep => ?_⟩
  rw [heq]
  exact Outline.node_restrict (Outline.getElem?_rank (Outline.mem_keptIds.2 ⟨hi, hkeep⟩))

theorem outline_eq_restrict_accented : (accentedOver .char ⟨8, 9⟩).tree.Nested ∧
    (accentedOver .char ⟨0, 10⟩).selection = [1, 3, 4] ∧
    (accentedOver .char ⟨8, 9⟩).selection = [3, 4] ∧
    (accentedOver .char ⟨8, 9⟩).outline = .ok accentedCall ∧
    (accentedOver .char ⟨0, 10⟩).outline = .ok accentedOutline ∧
    accentedCall = accentedOutline.restrict fun s => s.span.overlaps ⟨8, 9⟩ := by
  have hnested : (accentedOver .char ⟨8, 9⟩).tree.Nested :=
    SyntaxTree.ofRows_nested .char accented_placed
  have hcall : (accentedOver .char ⟨8, 9⟩).outline = .ok accentedCall := by decide +kernel
  obtain ⟨o₁, o₂, ho₁, ho₂, heq, -⟩ := outline_eq_restrict (accentedOver .char ⟨8, 9⟩)
    (accentedOver .char ⟨0, 10⟩) rfl rfl rfl rfl hnested (by decide) (by decide)
  rw [hcall] at ho₁
  rw [outline_accented_whole] at ho₂
  cases ho₁
  cases ho₂
  exact ⟨hnested, by decide +kernel, by decide +kernel, hcall, outline_accented_whole, heq⟩

end Reduction

end StatementOutline
