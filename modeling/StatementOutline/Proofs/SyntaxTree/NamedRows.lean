import StatementOutline.Proofs.SyntaxTree.Deletion
import StatementOutline.Proofs.SyntaxTree.Listing

/-!
# The named rows of a listing

In the listing of a tree (`IsListing`) a row stands under the nearest row before it that is one
level higher (`rowParent?`). The tree that is read from a listing has a node for each named row, and
the parent of the node is that of the nearest named row above, over any number of anonymous ones
(`ofRows_named`).

Reading keeps a lineage, one entry for each open level. Its entry at a level belongs to the last row
that was read at this level (`LineageAt`): descending adds an entry, and coming up cuts the list
just where the next row hangs.
-/

namespace StatementOutline

/-- Row `next` may follow `row` in a listing: it is below the root, and at most one level deeper. -/
def SyntaxRow.Admits (row next : SyntaxRow) : Prop :=
  0 < next.depth ∧ next.depth ≤ row.depth + 1

/-- Rows as they list a tree: the root comes first, and every other row may follow the row
before. -/
structure IsListing (rows : List SyntaxRow) : Prop where
  root : ∀ row ∈ rows.head?, row.depth = 0
  descent : rows.IsChain SyntaxRow.Admits

/-! ## Rows above a row -/

/-- The last row at the given depth among the first `k`. -/
def lastAtDepth (rows : List SyntaxRow) (depth : Nat) : (k : Nat) → Option Nat
  | 0 => none
  | k + 1 => if rows[k]?.map (·.depth) = some depth then some k else lastAtDepth rows depth k

/-- The row that row `k` stands under: the nearest one before it, one level higher. -/
def rowParent? (rows : List SyntaxRow) (k : Nat) : Option Nat :=
  match rows[k]?.map (·.depth) with
  | some (depth + 1) => lastAtDepth rows depth k
  | _ => none

/-- Row `k` is there and is named. -/
def isNamedRow (rows : List SyntaxRow) (k : Nat) : Bool :=
  rows[k]?.any (·.named)

/-- The number of named rows before row `k`. -/
def rowId (rows : List SyntaxRow) (k : Nat) : Nat :=
  (rows.take k).countP (·.named)

/-- The nearest named row strictly above row `k`. -/
def namedAbove? (rows : List SyntaxRow) (k : Nat) : Option Nat :=
  (climb (rowParent? rows) k).find? (isNamedRow rows)

variable {rows : List SyntaxRow} {row : SyntaxRow} {d j k : Nat}

theorem lastAtDepth_lt (h : lastAtDepth rows d k = some j) : j < k := by
  induction k with
  | zero => cases h
  | succ k ih =>
    rw [lastAtDepth] at h
    split at h
    · cases h
      exact Nat.lt_succ_self _
    · exact Nat.lt_succ_of_lt (ih h)

theorem lastAtDepth_self (h : rows[k]? = some row) :
    lastAtDepth rows row.depth (k + 1) = some k := by
  simp [lastAtDepth, h]

theorem lastAtDepth_of_ne (h : rows[k]? = some row) (hd : row.depth ≠ d) :
    lastAtDepth rows d (k + 1) = lastAtDepth rows d k := by
  simp [lastAtDepth, h, hd]

theorem falling_rowParent? (rows : List SyntaxRow) : Falling (rowParent? rows) := by
  intro k p h
  unfold rowParent? at h
  split at h
  · exact lastAtDepth_lt h
  · cases h

theorem rowParent?_of_zero (h : rows[k]? = some row) (hd : row.depth = 0) :
    rowParent? rows k = none := by
  simp [rowParent?, h, hd]

theorem rowParent?_of_succ (h : rows[k]? = some row) (hd : row.depth = d + 1) :
    rowParent? rows k = lastAtDepth rows d k := by
  simp [rowParent?, h, hd]

namespace IsListing

variable {next : SyntaxRow} (h : IsListing rows)

include h

theorem depth_zero (hrow : rows[0]? = some row) : row.depth = 0 :=
  h.root row (by rwa [List.head?_eq_getElem?])

/-- From one row to the next, a listing goes down one level at most, and never back to the
root's. -/
theorem depth_next (hrow : rows[k]? = some row) (hnext : rows[k + 1]? = some next) :
    row.Admits next := by
  obtain ⟨hk, rfl⟩ := List.getElem?_eq_some_iff.1 hrow
  obtain ⟨hk', rfl⟩ := List.getElem?_eq_some_iff.1 hnext
  exact List.isChain_iff_getElem.1 h.descent k hk'

/-- Above every row there is one at each higher level. -/
theorem exists_lastAtDepth (hrow : rows[k]? = some row) (hd : d < row.depth) :
    ∃ j, lastAtDepth rows d k = some j := by
  induction k generalizing row with
  | zero =>
    have := h.depth_zero hrow
    omega
  | succ k ih =>
    have hk : k < rows.length := by
      have := (List.getElem?_eq_some_iff.1 hrow).1
      omega
    have hprev := List.getElem?_eq_getElem hk
    have hstep := (h.depth_next hprev hrow).2
    by_cases heq : rows[k].depth = d
    · exact ⟨k, heq ▸ lastAtDepth_self hprev⟩
    · rw [lastAtDepth_of_ne hprev heq]
      exact ih hprev (by omega)

end IsListing

/-! ## The lineage of a row -/

/-- The node that what stands under row `k` belongs to: that of the row itself if it is named, that
of the nearest named row above if not. -/
def rowOwner (rows : List SyntaxRow) (k : Nat) : Option Nat :=
  ((k :: climb (rowParent? rows) k).find? (isNamedRow rows)).map (rowId rows)

theorem rowOwner_of_named (h : rows[k]? = some row) (hn : row.named = true) :
    rowOwner rows k = some (rowId rows k) := by
  simp [rowOwner, isNamedRow, h, hn]

theorem rowOwner_of_anonymous (h : rows[k]? = some row) (hn : row.named = false) :
    rowOwner rows k = (namedAbove? rows k).map (rowId rows) := by
  simp [rowOwner, namedAbove?, isNamedRow, h, hn]

/-- The nearest named row above a row is its parent or, if that is anonymous, the nearest one above
the parent. -/
theorem namedAbove?_of_parent (h : rowParent? rows k = some j) :
    (namedAbove? rows k).map (rowId rows) = rowOwner rows j := by
  rw [namedAbove?, climb_of_some (falling_rowParent? rows) h, rowOwner]

/-- A lineage in front of row `k`: deep enough for it, and the entry of each level is that of the
last row read there. -/
structure LineageAt (rows : List SyntaxRow) (k : Nat) (lineage : List (Option Nat)) : Prop where
  depth_le : ∀ {row}, rows[k]? = some row → row.depth ≤ lineage.length
  entry : ∀ {d j}, d < lineage.length → lastAtDepth rows d k = some j →
    (levelsAbove lineage (d + 1)).head? = some (rowOwner rows j)

namespace LineageAt

variable {lineage : List (Option Nat)} (h : IsListing rows)

include h

theorem zero : LineageAt rows 0 [] :=
  ⟨fun hrow => Nat.le_of_eq (h.depth_zero hrow), fun hd => absurd hd (Nat.not_lt_zero _)⟩

/-- The lineage cut to the depth of the next row begins with the owner of the row's parent, so that
the node of the row gets the right parent. -/
theorem parent_eq (hl : LineageAt rows k lineage) (hrow : rows[k]? = some row) :
    (levelsAbove lineage row.depth).head?.join = (namedAbove? rows k).map (rowId rows) := by
  cases hd : row.depth with
  | zero =>
    have hnone : climb (rowParent? rows) k = [] := climb_of_none (rowParent?_of_zero hrow hd)
    simp [levelsAbove, namedAbove?, hnone]
  | succ d =>
    obtain ⟨j, hj⟩ := h.exists_lastAtDepth hrow (d := d) (by omega)
    have hdepth := hl.depth_le hrow
    rw [hl.entry (by omega) hj, Option.join_some,
      namedAbove?_of_parent ((rowParent?_of_succ hrow hd).trans hj)]

/-- **Reading one more row.** The row goes on top of the levels above its own. Those levels are the
same for the next row, and at the row's own level it is the last one now. -/
theorem succ (hl : LineageAt rows k lineage) (hrow : rows[k]? = some row) :
    LineageAt rows (k + 1) (rowOwner rows k :: levelsAbove lineage row.depth) := by
  have hdepth := hl.depth_le hrow
  have hlength : (rowOwner rows k :: levelsAbove lineage row.depth).length = row.depth + 1 := by
    rw [List.length_cons, length_levelsAbove hdepth]
  refine ⟨fun hnext => ?_, fun {d j} hd hj => ?_⟩
  · rw [hlength]
    exact (h.depth_next hrow hnext).2
  · rw [hlength] at hd
    by_cases heq : row.depth = d
    · subst heq
      rw [lastAtDepth_self hrow] at hj
      cases hj
      have hwhole := levelsAbove_length (rowOwner rows k :: levelsAbove lineage row.depth)
      rw [hlength] at hwhole
      rw [hwhole, List.head?_cons]
    · rw [lastAtDepth_of_ne hrow heq] at hj
      rw [levelsAbove_cons hdepth (by omega), hl.entry (by omega) hj]

end LineageAt

/-! ## The nodes of a listing -/

theorem rowId_succ (h : rows[k]? = some row) :
    rowId rows (k + 1) = rowId rows k + if row.named then 1 else 0 := by
  simp [rowId, List.take_add_one, h, List.countP_singleton]

theorem rowId_mono {m : Nat} (h : k ≤ m) : rowId rows k ≤ rowId rows m :=
  (List.take_sublist_take_left h).countP_le

/-- There is one node for each named row, whatever the lineage. -/
theorem length_namedNodes (map : UnitMap) (next : Nat) (lineage : List (Option Nat))
    (rows : List SyntaxRow) :
    (namedNodes map next lineage rows).length = rows.countP (·.named) := by
  induction rows generalizing next lineage with
  | nil => rfl
  | cons row rows ih =>
    rw [namedNodes, List.countP_cons]
    cases hn : row.named with
    | true => simp [ih]
    | false => simp [ih]

/-- A named row has the node of its own number. -/
theorem getElem?_namedNodes (map : UnitMap) (h : IsListing rows) {lineage : List (Option Nat)}
    (hl : LineageAt rows k lineage) {m : Nat} (hkm : k ≤ m) (hrow : rows[m]? = some row)
    (hn : row.named = true) :
    (namedNodes map (rowId rows k) lineage (rows.drop k))[rowId rows m - rowId rows k]? =
      some (row.toNode map ((namedAbove? rows m).map (rowId rows))) := by
  induction hrest : rows.drop k generalizing k lineage with
  | nil =>
    have hlength : rows.length ≤ k := List.drop_eq_nil_iff.1 hrest
    have := (List.getElem?_eq_some_iff.1 hrow).1
    omega
  | cons head rest ih =>
    have hhead : rows[k]? = some head := by rw [← List.head?_drop, hrest, List.head?_cons]
    have hrest' : rows.drop (k + 1) = rest := by rw [← List.tail_drop, hrest, List.tail_cons]
    have hstep := hl.succ h hhead
    have hid := rowId_succ hhead
    rw [namedNodes, hl.parent_eq h hhead]
    rcases Nat.eq_or_lt_of_le hkm with rfl | hlt
    · obtain rfl : row = head := Option.some.inj (hrow.symm.trans hhead)
      simp [hn]
    · have hmono : rowId rows (k + 1) ≤ rowId rows m := rowId_mono hlt
      cases hnamed : head.named with
      | true =>
        rw [rowOwner_of_named hhead hnamed] at hstep
        rw [hnamed, if_pos rfl] at hid
        have := ih hstep hlt hrest'
        rw [hid] at this hmono
        rw [if_pos rfl, show rowId rows m - rowId rows k = rowId rows m - (rowId rows k + 1) + 1 by
          omega, List.getElem?_cons_succ]
        exact this
      | false =>
        rw [rowOwner_of_anonymous hhead hnamed] at hstep
        rw [hnamed, if_neg Bool.false_ne_true, Nat.add_zero] at hid
        have := ih hstep hlt hrest'
        rw [hid] at this
        exact this

/-- Every number up to that of the named rows is the number of one. -/
theorem exists_rowId {i : Nat} (hi : i < rows.countP (·.named)) :
    ∃ k row, rows[k]? = some row ∧ row.named = true ∧ rowId rows k = i := by
  induction rows generalizing i with
  | nil => simp at hi
  | cons head rows ih =>
    have hcons : ∀ k, rowId (head :: rows) (k + 1) = rowId rows k + if head.named then 1 else 0 :=
      fun k => by rw [rowId, List.take_succ_cons, List.countP_cons, rowId]
    rw [List.countP_cons] at hi
    cases hnamed : head.named with
    | true =>
      cases i with
      | zero => exact ⟨0, head, rfl, hnamed, rfl⟩
      | succ i =>
        obtain ⟨k, row, hrow, hn, hid⟩ := ih (i := i) (by rw [if_pos hnamed] at hi; omega)
        exact ⟨k + 1, row, hrow, hn, by rw [hcons, if_pos hnamed, hid]⟩
    | false =>
      have hne : ¬ head.named = true := by simp [hnamed]
      obtain ⟨k, row, hrow, hn, hid⟩ := ih (i := i) (by rwa [if_neg hne] at hi)
      exact ⟨k + 1, row, hrow, hn, by rw [hcons, if_neg hne, hid, Nat.add_zero]⟩

namespace IsListing

variable (h : IsListing rows)

include h

theorem exists_rowParent (hrow : rows[k]? = some row) (hk : 0 < k) :
    ∃ p, rowParent? rows k = some p := by
  obtain ⟨k, rfl⟩ : ∃ m, k = m + 1 := ⟨k - 1, by omega⟩
  have hlt : k < rows.length := by
    have := (List.getElem?_eq_some_iff.1 hrow).1
    omega
  have hpos := (h.depth_next (List.getElem?_eq_getElem hlt) hrow).1
  obtain ⟨d, hd⟩ : ∃ d, row.depth = d + 1 := ⟨row.depth - 1, by omega⟩
  rw [rowParent?_of_succ hrow hd]
  exact h.exists_lastAtDepth hrow (by omega)

/-- With a named root there is a named row above every other row. -/
theorem exists_namedAbove (hroot : ∀ row ∈ rows.head?, row.named = true)
    (hrow : rows[k]? = some row) (hk : 0 < k) : ∃ a, namedAbove? rows k = some a := by
  have hlt : 0 < rows.length :=
    Nat.lt_trans hk (List.getElem?_eq_some_iff.1 hrow).1
  have hnamed : isNamedRow rows 0 = true := by
    have hhead : rows[0]? = some rows[0] := List.getElem?_eq_getElem hlt
    rw [isNamedRow, hhead, Option.any_some]
    exact hroot _ (by rw [List.head?_eq_getElem?, hhead]; rfl)
  have habove : 0 ∈ climb (rowParent? rows) k := by
    refine zero_mem_climb (falling_rowParent? rows) (fun m hm hmk => ?_) hk
    have hlt : m < rows.length :=
      Nat.lt_of_le_of_lt hmk (List.getElem?_eq_some_iff.1 hrow).1
    exact h.exists_rowParent (List.getElem?_eq_getElem hlt) hm
  exact Option.isSome_iff_exists.1 (List.find?_isSome.2 ⟨0, habove, hnamed⟩)

end IsListing

/-! ## The listing of a tree -/

namespace Siblings

/-- Behind a row that is deep enough, a forest and what comes after it go on as a listing does. -/
theorem isChain_rows (forest : Siblings) (prev : SyntaxRow) {rest : List SyntaxRow} (hd : 0 < d)
    (hprev : d ≤ prev.depth + 1) (hrest : rest.IsChain SyntaxRow.Admits)
    (hhead : ∀ row ∈ rest.head?, 0 < row.depth ∧ row.depth ≤ d) :
    (prev :: (forest.rows d ++ rest)).IsChain SyntaxRow.Admits := by
  induction forest generalizing prev d rest with
  | nil =>
    refine List.isChain_cons.2 ⟨fun row hrow => ?_, hrest⟩
    obtain ⟨hpos, hle⟩ := hhead row hrow
    exact ⟨hpos, Nat.le_trans hle hprev⟩
  | cons row below after ihb iha =>
    have hafter := iha { row with depth := d } hd (Nat.le_succ d) hrest hhead
    have hbelow := ihb { row with depth := d } (Nat.succ_pos d) (Nat.le_refl _) hafter.tail
      (List.isChain_cons.1 hafter).1
    rw [rows, List.cons_append, List.append_assoc]
    exact List.isChain_cons_cons.2 ⟨⟨hd, hprev⟩, hbelow⟩

theorem isListing_rows (row : SyntaxRow) (below : Siblings) :
    IsListing ((cons row below nil).rows 0) where
  root := fun _ hrow => by cases hrow; rfl
  descent := isChain_rows below _ Nat.one_pos (Nat.le_refl 1) .nil (by simp [rows])

end Siblings

/-! ## The tree of a listing -/

namespace SyntaxTree

variable {i : Nat}

theorem nodes_ofRows (map : UnitMap) (rows : List SyntaxRow) :
    (ofRows map rows).nodes = (namedNodes map 0 [] rows).toArray :=
  rfl

theorem size_ofRows (map : UnitMap) (rows : List SyntaxRow) :
    (ofRows map rows).size = rows.countP (·.named) := by
  rw [size, nodes_ofRows, List.size_toArray, length_namedNodes]

/-- A named row is found again in the tree under its id, with the parent that the listing gives
it. -/
theorem node_rowId (map : UnitMap) (h : IsListing rows) (hrow : rows[k]? = some row)
    (hn : row.named = true) :
    (ofRows map rows).node (rowId rows k) =
      row.toNode map ((namedAbove? rows k).map (rowId rows)) := by
  have hnode := getElem?_namedNodes map h (LineageAt.zero h) (Nat.zero_le k) hrow hn
  rw [show rowId rows 0 = 0 from rfl, List.drop_zero, Nat.sub_zero] at hnode
  rw [node, nodes_ofRows, List.getElem?_toArray, hnode, Option.getD_some]

theorem exists_parent (map : UnitMap) (h : IsListing rows)
    (hroot : ∀ row ∈ rows.head?, row.named = true) (hi : 0 < i)
    (hsize : i < (ofRows map rows).size) : ∃ p, (ofRows map rows).parent? i = some p := by
  rw [size_ofRows] at hsize
  obtain ⟨k, row, hrow, hn, rfl⟩ := exists_rowId hsize
  have hk : 0 < k := Nat.pos_of_ne_zero fun hzero => by
    rw [hzero] at hi
    exact Nat.lt_irrefl 0 hi
  obtain ⟨a, ha⟩ := h.exists_namedAbove hroot hrow hk
  refine ⟨rowId rows a, ?_⟩
  rw [parent?_eq_parent, node_rowId map h hrow hn, SyntaxRow.toNode, ha, Option.map_some]

/-- **The tree of a listing.** It has one node for each named row, in order, with the row's own data
and its place in the unit, under the node of the nearest named row above. Children are the nodes
that name their parent, in increasing order, and parents come first. If the root is named, all other
nodes have a parent and lie below node 0. -/
theorem ofRows_named (map : UnitMap) (h : IsListing rows) :
    let t := ofRows map rows
    t.size = rows.countP (·.named) ∧
    (∀ i < t.size, ∃ k row, rows[k]? = some row ∧ row.named = true ∧ rowId rows k = i) ∧
    (∀ k row, rows[k]? = some row → row.named = true →
      t.node (rowId rows k) =
        { kind := row.kind
          field := row.field
          span := ⟨map.toUnits row.bytes.start, map.toUnits row.bytes.stop⟩
          bytes := row.bytes
          lines := row.lines
          parent := (namedAbove? rows k).map (rowId rows) }) ∧
    (∀ i, t.children i = (List.range t.size).filter fun j => (t.node j).parent == some i) ∧
    (∀ i p, (t.node i).parent = some p → p < i) ∧
    ((∀ row ∈ rows.head?, row.named = true) → ∀ i, 0 < i → i < t.size →
      (∃ p, (t.node i).parent = some p) ∧ i ∈ t.descendants 0) := by
  intro t
  simp only [← parent?_eq_parent]
  refine ⟨size_ofRows map rows, fun i hi => ?_, fun k row hrow hn => ?_, fun i => ?_,
    fun i p hp => (parent_lt hp).1, fun hroot i hi hsize => ?_⟩
  · exact exists_rowId (size_ofRows map rows ▸ hi)
  · exact node_rowId map h hrow hn
  · exact children_eq_childIds t i
  · have hbelow : 0 ∈ t.ancestors i := zero_mem_climb t.falling
      (fun j hj hji => exists_parent map h hroot hj (Nat.lt_of_le_of_lt hji hsize)) hi
    exact ⟨exists_parent map h hroot hi hsize, mem_descendants.2 hbelow⟩

/-- What stands below the root of `é a;b c`: two anonymous levels around a call whose name is behind
a third, then a node one level further out and one next to the root's first. -/
def bracketed : Siblings :=
  .cons ⟨0, false, "(", none, ⟨0, 6⟩, ⟨0, 0⟩⟩
    (.cons ⟨0, false, "[", none, ⟨0, 4⟩, ⟨0, 0⟩⟩
      (.cons ⟨0, true, "call", some "value", ⟨0, 4⟩, ⟨0, 0⟩⟩
        (.cons ⟨0, false, ".", none, ⟨3, 4⟩, ⟨0, 0⟩⟩
          (.cons ⟨0, true, "name", none, ⟨3, 4⟩, ⟨0, 0⟩⟩ .nil .nil) .nil) .nil)
      (.cons ⟨0, true, "tail", some "rest", ⟨5, 6⟩, ⟨0, 0⟩⟩ .nil .nil))
    (.cons ⟨0, true, "last", none, ⟨7, 8⟩, ⟨0, 0⟩⟩ .nil .nil)

theorem ofRows_named_bracketed :
    let rows := (Siblings.cons ⟨0, true, "program", none, ⟨0, 8⟩, ⟨0, 0⟩⟩ bracketed .nil).rows 0
    let t := ofRows (UnitMap.ofText .utf16 "é a;b c") rows
    IsListing rows ∧ t.size = 5 ∧
      t.node 3 = ⟨"tail", some "rest", ⟨4, 5⟩, ⟨5, 6⟩, ⟨0, 0⟩, some 0⟩ ∧
      t.children 0 = [1, 3, 4] ∧ 4 ∈ t.descendants 0 := by
  intro rows t
  have hrows : IsListing rows := Siblings.isListing_rows _ _
  obtain ⟨hsize, -, hnode, hchildren, -, hrooted⟩ :=
    ofRows_named (UnitMap.ofText .utf16 "é a;b c") hrows
  have hfive : t.size = 5 := hsize
  have htail := hnode 6 ⟨2, true, "tail", some "rest", ⟨5, 6⟩, ⟨0, 0⟩⟩ rfl rfl
  have hid : rowId rows 6 = 3 := rfl
  have habove : namedAbove? rows 6 = some 0 := by decide +kernel
  rw [hid, habove] at htail
  exact ⟨hrows, hfive, htail.trans (by decide +kernel), (hchildren 0).trans (by decide +kernel),
    (hrooted (by decide) 4 (by decide) (hfive ▸ by decide)).2⟩

end SyntaxTree

end StatementOutline
