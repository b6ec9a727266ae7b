import StatementOutline.Proofs.Offset.Boundary
import StatementOutline.Proofs.SyntaxTree.Nesting
import StatementOutline.SyntaxTree.Rows

/-!
# Listed trees

`Siblings` is a grammar's tree before it is listed, with its anonymous nodes. Reading its `rows`
back gives its named nodes (`nodes`), the lineage of the walk being no more than the owner that each
level hands down (`namedNodes_rows`). If the nodes of the tree are placed as a grammar places them
(`Placed`), the tree of the named ones is nested in every unit (`ofRows_nested`): leaving out a node
moves what stands below it one level up, between neighbours that the node itself kept apart.
-/

namespace StatementOutline

/-- Neighbouring nodes of a grammar's tree in order: the first, what stands below it, and what comes
after it. A tree is a single node with what stands below it. The depth in `row` is not read. -/
inductive Siblings where
  | nil
  | cons (row : SyntaxRow) (below after : Siblings)

namespace Siblings

/-- The rows in preorder, when the first level has the given depth. -/
def rows (depth : Nat) : Siblings → List SyntaxRow
  | nil => []
  | cons row below after =>
    { row with depth } :: (below.rows (depth + 1) ++ after.rows depth)

/-- The named nodes in preorder, from id `next` on, when those of the first level belong to
`owner`. What stands below an anonymous node belongs to its owner. -/
def nodes (map : UnitMap) (next : Nat) (owner : Option Nat) : Siblings → List SyntaxNode
  | nil => []
  | cons row below after =>
    if row.named then
      let inner := below.nodes map (next + 1) (some next)
      row.toNode map owner :: (inner ++ after.nodes map (next + 1 + inner.length) owner)
    else
      let inner := below.nodes map next owner
      inner ++ after.nodes map (next + inner.length) owner

/-- The first node. -/
def first? : Siblings → Option SyntaxRow
  | nil => none
  | cons row _ _ => some row

end Siblings

/-! ## Reading a listing -/

section Reading

variable {lineage : List (Option Nat)} {depth d : Nat}

theorem length_levelsAbove (h : depth ≤ lineage.length) :
    (levelsAbove lineage depth).length = depth := by
  rw [levelsAbove, List.length_drop]
  omega

theorem levelsAbove_length (lineage : List (Option Nat)) :
    levelsAbove lineage lineage.length = lineage := by
  simp [levelsAbove]

/-- Cutting down to a level forgets what was entered below it. -/
theorem levelsAbove_cons (h : depth ≤ lineage.length) (hd : d ≤ depth) (entry : Option Nat) :
    levelsAbove (entry :: levelsAbove lineage depth) d = levelsAbove lineage d := by
  have hcount : (entry :: levelsAbove lineage depth).length - d = (depth - d) + 1 := by
    rw [List.length_cons, length_levelsAbove h]
    omega
  rw [levelsAbove, hcount, List.drop_succ_cons, levelsAbove, levelsAbove, List.drop_drop]
  congr 1
  omega

/-- Reading goes on alike after two lineages that agree at the levels above the next row. -/
theorem namedNodes_congr {map : UnitMap} {next : Nat} {lineage' : List (Option Nat)}
    {rows : List SyntaxRow}
    (h : ∀ row ∈ rows.head?, levelsAbove lineage row.depth = levelsAbove lineage' row.depth) :
    namedNodes map next lineage rows = namedNodes map next lineage' rows := by
  cases rows with
  | nil => rfl
  | cons row rows =>
    have hrow := h row rfl
    simp only [namedNodes, hrow]

/-- Reading a listing gives the named nodes of the tree, and goes on with the rows behind it as if
it had not been there. -/
theorem namedNodes_rows (map : UnitMap) (forest : Siblings) (next : Nat) (rest : List SyntaxRow)
    (hd : depth ≤ lineage.length) (hrest : ∀ row ∈ rest.head?, row.depth ≤ depth) :
    namedNodes map next lineage (forest.rows depth ++ rest) =
      forest.nodes map next (levelsAbove lineage depth).head?.join ++
        namedNodes map
          (next + (forest.nodes map next (levelsAbove lineage depth).head?.join).length)
          lineage rest := by
  induction forest generalizing next depth lineage rest with
  | nil => rfl
  | cons row below after ihb iha =>
    have hafter : ∀ row ∈ (after.rows depth ++ rest).head?, row.depth ≤ depth := by
      cases after with
      | nil => exact hrest
      | cons row' below' after' =>
        intro row hrow
        cases hrow
        exact Nat.le_refl _
    -- What both branches do once they have entered the row.
    have hstep : ∀ entry n,
        namedNodes map n (entry :: levelsAbove lineage depth)
            (below.rows (depth + 1) ++ (after.rows depth ++ rest)) =
          below.nodes map n entry ++
            (after.nodes map (n + (below.nodes map n entry).length)
                (levelsAbove lineage depth).head?.join ++
              namedNodes map (n + (below.nodes map n entry).length +
                  (after.nodes map (n + (below.nodes map n entry).length)
                    (levelsAbove lineage depth).head?.join).length)
                lineage rest) := by
      intro entry n
      have hlen : (entry :: levelsAbove lineage depth).length = depth + 1 := by
        rw [List.length_cons, length_levelsAbove hd]
      have hwhole : levelsAbove (entry :: levelsAbove lineage depth) (depth + 1) =
          entry :: levelsAbove lineage depth := by
        rw [← hlen, levelsAbove_length]
      rw [ihb n _ (by omega) fun row hrow => Nat.le_succ_of_le (hafter row hrow), hwhole,
        List.head?_cons, Option.join_some, iha _ rest (by omega) hrest,
        levelsAbove_cons hd (Nat.le_refl _)]
      congr 2
      exact namedNodes_congr fun row hrow => levelsAbove_cons hd (hrest row hrow) entry
    rw [Siblings.rows, List.cons_append, List.append_assoc, namedNodes, Siblings.nodes]
    split
    · rw [hstep]
      simp [SyntaxRow.toNode, Nat.add_assoc, Nat.add_comm 1]
    · rw [hstep]
      simp [Nat.add_assoc]

/-- Reading the rows of a forest gives the nodes of the forest, as the recursion over it lists
them. -/
theorem namedNodes_rows_zero (map : UnitMap) (forest : Siblings) :
    namedNodes map 0 [] (forest.rows 0) = forest.nodes map 0 none := by
  have h : namedNodes map 0 [] (forest.rows 0 ++ []) = _ :=
    namedNodes_rows map forest 0 [] (Nat.le_refl 0) (by simp)
  simpa [namedNodes, levelsAbove] using h

end Reading

/-! ## Nodes side by side -/

/-- Nodes numbered from `next` on that fill part of `room`: each lies in it, belongs to `owner` or
to one of the nodes, which then encloses it, and those that belong together are in order and
apart. -/
structure Tidy (next : Nat) (owner : Option Nat) (room : Span) (nodes : List SyntaxNode) :
    Prop where
  forwards : ∀ x ∈ nodes, x.span.start ≤ x.span.stop
  within : ∀ x ∈ nodes, room.encloses x.span = true
  owned : ∀ x ∈ nodes, x.parent = owner ∨
    ∃ m y, nodes[m]? = some y ∧ x.parent = some (next + m) ∧ y.span.encloses x.span = true
  apart : nodes.Pairwise fun x y => x.parent = y.parent → x.span.Before y.span

section Tidy

variable {next : Nat} {owner : Option Nat} {room : Span} {nodes : List SyntaxNode}

theorem Tidy.nil : Tidy next owner room [] :=
  ⟨by simp, by simp, by simp, .nil⟩

/-- Two groups of nodes with one owner, the second in what the first leaves free. -/
theorem Tidy.append {lo mid hi : Nat} {left right : List SyntaxNode} (hlo : lo ≤ mid)
    (hhi : mid ≤ hi) (hl : Tidy next owner ⟨lo, mid⟩ left)
    (hr : Tidy (next + left.length) owner ⟨mid, hi⟩ right) :
    Tidy next owner ⟨lo, hi⟩ (left ++ right) := by
  have hleft : ∀ x ∈ left, lo ≤ x.span.start ∧ x.span.stop ≤ mid :=
    fun x hx => Span.encloses_iff.1 (hl.within x hx)
  have hright : ∀ x ∈ right, mid ≤ x.span.start ∧ x.span.stop ≤ hi :=
    fun x hx => Span.encloses_iff.1 (hr.within x hx)
  refine ⟨?_, ?_, ?_, ?_⟩
  · intro x hx
    rcases List.mem_append.1 hx with hx | hx
    · exact hl.forwards x hx
    · exact hr.forwards x hx
  · intro x hx
    rw [Span.encloses_iff]
    rcases List.mem_append.1 hx with hx | hx
    · obtain ⟨hstart, hstop⟩ := hleft x hx
      exact ⟨hstart, Nat.le_trans hstop hhi⟩
    · obtain ⟨hstart, hstop⟩ := hright x hx
      exact ⟨Nat.le_trans hlo hstart, hstop⟩
  · intro x hx
    rcases List.mem_append.1 hx with hx | hx
    · rcases hl.owned x hx with h | ⟨m, y, hy, hp, henc⟩
      · exact .inl h
      · obtain ⟨hm, -⟩ := List.getElem?_eq_some_iff.1 hy
        exact .inr ⟨m, y, by rw [List.getElem?_append_left hm, hy], hp, henc⟩
    · rcases hr.owned x hx with h | ⟨m, y, hy, hp, henc⟩
      · exact .inl h
      · refine .inr ⟨left.length + m, y, ?_, by rw [hp, Nat.add_assoc], henc⟩
        rw [List.getElem?_append_right (Nat.le_add_right _ _), Nat.add_sub_cancel_left, hy]
  · refine List.pairwise_append.2 ⟨hl.apart, hr.apart, fun x hx y hy _ => ?_⟩
    exact Nat.le_trans (hleft x hx).2 (hright y hy).1

/-- A node with tidy nodes inside its span, all of which belong to it, is tidy. -/
theorem Tidy.cons {node : SyntaxNode} (howner : ∀ p ∈ owner, p < next)
    (hparent : node.parent = owner) (hforward : node.span.start ≤ node.span.stop)
    (hroom : room.encloses node.span = true) (h : Tidy (next + 1) (some next) node.span nodes) :
    Tidy next owner room (node :: nodes) := by
  have hbelow : ∀ x ∈ nodes, ∃ m, x.parent = some (next + m) ∧ ∃ y,
      (node :: nodes)[m]? = some y ∧ y.span.encloses x.span = true := by
    intro x hx
    rcases h.owned x hx with hp | ⟨m, y, hy, hp, henc⟩
    · exact ⟨0, hp, node, rfl, h.within x hx⟩
    · refine ⟨m + 1, ?_, y, by rw [List.getElem?_cons_succ, hy], henc⟩
      rw [hp, Nat.add_assoc, Nat.add_comm 1]
  refine ⟨?_, ?_, ?_, ?_⟩
  · intro x hx
    rcases List.mem_cons.1 hx with rfl | hx
    · exact hforward
    · exact h.forwards x hx
  · intro x hx
    rcases List.mem_cons.1 hx with rfl | hx
    · exact hroom
    · exact Span.encloses_trans hroom (h.within x hx)
  · intro x hx
    rcases List.mem_cons.1 hx with rfl | hx
    · exact .inl hparent
    · obtain ⟨m, hp, y, hy, henc⟩ := hbelow x hx
      exact .inr ⟨m, y, hy, hp, henc⟩
  · refine List.pairwise_cons.2 ⟨fun x hx hp => ?_, h.apart⟩
    -- Nothing below the node has the node's own owner.
    obtain ⟨m, hx, -⟩ := hbelow x hx
    have := howner (next + m) (by rw [← hparent, hp, hx]; rfl)
    omega

end Tidy

/-! ## Placed trees -/

/-- Every node of the tree starts at or before its end, both on boundaries of the text, lies within
the node above it (those of the first level within `outer`), and ends at or before the start of the
node after it. -/
def Siblings.Placed (text : String) (outer : Span) : Siblings → Prop
  | nil => True
  | cons row below after =>
    (row.bytes.start ≤ row.bytes.stop ∧ Text.IsBoundary text row.bytes.start ∧
      Text.IsBoundary text row.bytes.stop ∧ outer.encloses row.bytes = true ∧
      ∀ other ∈ after.first?, row.bytes.Before other.bytes) ∧
    below.Placed text row.bytes ∧ after.Placed text outer

instance Siblings.decidablePlaced (text : String) (outer : Span) :
    (forest : Siblings) → Decidable (forest.Placed text outer)
  | nil => .isTrue trivial
  | cons row below after =>
    have := decidablePlaced text row.bytes below
    have := decidablePlaced text outer after
    inferInstanceAs (Decidable ((row.bytes.start ≤ row.bytes.stop ∧
      Text.IsBoundary text row.bytes.start ∧ Text.IsBoundary text row.bytes.stop ∧
      outer.encloses row.bytes = true ∧ ∀ other ∈ after.first?, row.bytes.Before other.bytes) ∧
      below.Placed text row.bytes ∧ after.Placed text outer))

namespace Siblings

variable {text : String} {outer : Span} {forest : Siblings}

theorem Placed.start_le (h : forest.Placed text outer) {row : SyntaxRow}
    (hrow : row ∈ forest.first?) : outer.start ≤ row.bytes.start := by
  cases forest with
  | nil => cases hrow
  | cons row' below after =>
    cases hrow
    obtain ⟨⟨-, -, -, hencloses, -⟩, -, -⟩ := h
    exact (Span.encloses_iff.1 hencloses).1

/-- The named nodes of a placed tree are tidy in the unit, in the room from any boundary in front of
the first one. -/
theorem Placed.tidy_nodes (encoding : OffsetEncoding) (h : forest.Placed text outer)
    (hstop : Text.IsBoundary text outer.stop) {lo : Nat} (hlo : Text.IsBoundary text lo)
    (hfirst : ∀ row ∈ forest.first?, lo ≤ row.bytes.start) {next : Nat} {owner : Option Nat}
    (howner : ∀ p ∈ owner, p < next) :
    Tidy next owner
      ⟨(UnitMap.ofText encoding text).toUnits lo,
        (UnitMap.ofText encoding text).toUnits outer.stop⟩
      (forest.nodes (UnitMap.ofText encoding text) next owner) := by
  induction forest generalizing outer lo next owner with
  | nil => exact .nil
  | cons row below after ihb iha =>
    obtain ⟨⟨hforward, hrowStart, hrowStop, hencloses, hafter⟩, hbelow, hrest⟩ := h
    have hloStart : lo ≤ row.bytes.start := hfirst row rfl
    have hlo_le := UnitMap.toUnits_mono encoding hlo hrowStart hloStart
    have hforward_le := UnitMap.toUnits_mono encoding hrowStart hrowStop hforward
    have hstop_le := UnitMap.toUnits_mono encoding hrowStop hstop (Span.encloses_iff.1 hencloses).2
    rw [nodes]
    split
    · rw [← List.cons_append]
      refine Tidy.append (Nat.le_trans hlo_le hforward_le) hstop_le (Tidy.cons howner rfl
        hforward_le (Span.encloses_iff.2 ⟨hlo_le, Nat.le_refl _⟩) ?_) ?_
      · refine ihb hbelow hrowStop hrowStart (fun _ hrow => hbelow.start_le hrow) ?_
        intro p hp
        cases hp
        exact Nat.lt_succ_self next
      · rw [List.length_cons, Nat.add_comm _ 1, ← Nat.add_assoc]
        exact iha hrest hstop hrowStop hafter fun p hp =>
          Nat.lt_of_lt_of_le (howner p hp) (by omega)
    · refine Tidy.append (Nat.le_trans hlo_le hforward_le) hstop_le ?_ ?_
      · exact ihb hbelow hrowStop hlo
          (fun _ hrow => Nat.le_trans hloStart (hbelow.start_le hrow)) howner
      · exact iha hrest hstop hrowStop hafter fun p hp =>
          Nat.lt_of_lt_of_le (howner p hp) (Nat.le_add_right _ _)

end Siblings

namespace SyntaxTree

/-- A tree whose nodes are tidy from the first on is nested. -/
theorem nested_of_tidy {t : SyntaxTree} {room : Span} {nodes : List SyntaxNode}
    (ht : t.nodes = nodes.toArray) (h : Tidy 0 none room nodes) : t.Nested := by
  have hsize : t.size = nodes.length := by rw [size, ht, List.size_toArray]
  have hnode : ∀ {i x}, nodes[i]? = some x → t.node i = x := by
    intro i x hx
    rw [node, ht, List.getElem?_toArray, hx, Option.getD_some]
  have hparent : ∀ {i p}, t.parent? i = some p →
      ∃ x, nodes[i]? = some x ∧ x.parent = some p := by
    intro i p hp
    rw [parent?, parentIn, ht, List.getElem?_toArray] at hp
    exact Option.bind_eq_some_iff.1 hp
  refine ⟨?_, ?_, ?_⟩
  · intro i hi
    rw [hsize] at hi
    rw [hnode (List.getElem?_eq_getElem hi)]
    exact h.forwards _ (List.getElem_mem hi)
  · intro i p hp
    obtain ⟨x, hx, hxp⟩ := hparent hp
    rcases h.owned x (List.mem_of_getElem? hx) with hnone | ⟨m, y, hy, hym, henc⟩
    · rw [hnone] at hxp
      cases hxp
    · rw [hxp, Nat.zero_add] at hym
      cases hym
      rw [hnode hx, hnode hy]
      exact henc
  · intro i
    apply List.Pairwise.isChain
    refine (t.pairwise_children i).imp_of_mem fun {c d} hc hd hcd => ?_
    obtain ⟨x, hx, hxi⟩ := hparent (mem_children.1 hc)
    obtain ⟨y, hy, hyi⟩ := hparent (mem_children.1 hd)
    rw [hnode hx, hnode hy]
    obtain ⟨hcl, rfl⟩ := List.getElem?_eq_some_iff.1 hx
    obtain ⟨hdl, rfl⟩ := List.getElem?_eq_some_iff.1 hy
    exact List.pairwise_iff_getElem.1 h.apart c d hcl hdl hcd (hxi.trans hyi.symm)

/-- **Trees of a placed forest are nested.** If nodes are placed one inside the other and side by
side on boundaries of the text, so are their spans in every unit, with the anonymous ones left
out. -/
theorem ofRows_nested {text : String} {forest : Siblings} (encoding : OffsetEncoding)
    (h : forest.Placed text ⟨0, text.utf8ByteSize⟩) :
    (ofRows (UnitMap.ofText encoding text) (forest.rows 0)).Nested := by
  have htidy : Tidy 0 none _ (forest.nodes (UnitMap.ofText encoding text) 0 none) :=
    h.tidy_nodes encoding (Text.isBoundary_utf8ByteSize text) (Text.isBoundary_zero text)
      (fun _ _ => Nat.zero_le _) (by simp)
  refine nested_of_tidy ?_ htidy
  simp only [ofRows, ofNodes, namedNodes_rows_zero]

end SyntaxTree

end StatementOutline
