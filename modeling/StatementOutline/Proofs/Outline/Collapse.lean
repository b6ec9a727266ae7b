import Mathlib.Data.List.Flatten
import StatementOutline.Proofs.Outline.Leaf

/-!
# Collapse on one line

A node that stands on one line collapses unless it has a block. `hasBlock` finds one exactly if a
node of a block kind lies below with nothing but nodes between that are looked through
(`hasBlock_iff`); the block itself may be looked through as well. Working off a list of pending
nodes instead, the last one first, comes to an end and to the same answer (`searchBlock_eq`).

In the tables of the languages every kind that collapses is otherwise compound, and no field makes a
statement of it (`collapse_entries`). So a statement of such a kind tells from its node whether it
is compound and may have children (`compound_of_collapsing`).
-/

namespace StatementOutline

namespace RuleTable

variable {table : RuleTable} {t : SyntaxTree} {blocks : List String} {i x d : Nat} {c : Collapse}

/-- Node `d` is of a block kind, lies below node `x`, and everything between the two is looked
through. -/
def IsBlockOf (table : RuleTable) (t : SyntaxTree) (blocks : List String) (x d : Nat) : Prop :=
  x ∈ t.ancestors d ∧ (t.node d).kind ∈ blocks ∧
    ∀ m ∈ t.ancestors d, x ∈ t.ancestors m → table.ruleFor t m = .skip

/-! ## The search for a block -/

/-- Nothing stands between a node and its child. -/
theorem not_between {c m : Nat} (hc : c ∈ t.children x) (hm : m ∈ t.ancestors c) :
    x ∉ t.ancestors m := by
  intro hx
  rw [SyntaxTree.ancestors_of_mem_children hc] at hm
  have hlt := SyntaxTree.lt_of_mem_ancestors hx
  rcases List.mem_cons.1 hm with rfl | hm
  · omega
  · have := SyntaxTree.lt_of_mem_ancestors hm
    omega

theorem isBlockOf_child {c : Nat} (hc : c ∈ t.children x) (hkind : (t.node c).kind ∈ blocks) :
    table.IsBlockOf t blocks x c :=
  ⟨mem_climb_of_link t.falling (SyntaxTree.mem_children.1 hc), hkind,
    fun _ hm hx => absurd hx (not_between hc hm)⟩

theorem IsBlockOf.of_child {c : Nat} (hc : c ∈ t.children x) (hskip : table.ruleFor t c = .skip)
    (h : table.IsBlockOf t blocks c d) : table.IsBlockOf t blocks x d := by
  obtain ⟨hcd, hkind, hbetween⟩ := h
  have hxc : x ∈ t.ancestors c := mem_climb_of_link t.falling (SyntaxTree.mem_children.1 hc)
  refine ⟨climb_trans t.falling hxc hcd, hkind, fun m hm hxm => ?_⟩
  rcases climb_total t.falling hm hcd with rfl | hmc | hcm
  · exact hskip
  · exact absurd hxm (not_between hc hmc)
  · exact hbetween m hm hcm

/-- The way to a block begins with a child, which is the block or is looked through. -/
theorem IsBlockOf.exists_child (h : table.IsBlockOf t blocks x d) : ∃ c ∈ t.children x,
    (t.node c).kind ∈ blocks ∨ table.ruleFor t c = .skip ∧ table.IsBlockOf t blocks c d := by
  obtain ⟨hxd, hkind, hbetween⟩ := h
  obtain ⟨c, hlink, rfl | hcd⟩ := (mem_climb_iff_under t.falling).1 hxd
  · exact ⟨d, SyntaxTree.mem_children.2 hlink, .inl hkind⟩
  · have hxc : x ∈ t.ancestors c := mem_climb_of_link t.falling hlink
    refine ⟨c, SyntaxTree.mem_children.2 hlink, .inr ⟨hbetween c hcd hxc, hcd, hkind, ?_⟩⟩
    exact fun m hm hcm => hbetween m hm (climb_trans t.falling hxc hcm)

/-- The recursion finds exactly the nodes of a block's kind that are reached through nodes looked
through. -/
theorem hasBlock_iff (table : RuleTable) (t : SyntaxTree) (blocks : List String) (x : Nat) :
    table.hasBlock t blocks x = true ↔ ∃ d, table.IsBlockOf t blocks x d := by
  induction x using SyntaxTree.child_induction t with
  | step x ih =>
    rw [hasBlock_eq]
    simp only [List.any_eq_true, Bool.or_eq_true, Bool.and_eq_true, List.contains_iff_mem,
      beq_iff_eq]
    constructor
    · rintro ⟨c, hc, hkind | ⟨hskip, hbelow⟩⟩
      · exact ⟨c, isBlockOf_child hc hkind⟩
      · obtain ⟨d, hd⟩ := (ih c hc).1 hbelow
        exact ⟨d, hd.of_child hc hskip⟩
    · rintro ⟨d, hd⟩
      obtain ⟨c, hc, hkind | ⟨hskip, hbelow⟩⟩ := hd.exists_child
      · exact ⟨c, hc, .inl hkind⟩
      · exact ⟨c, hc, .inr ⟨hskip, (ih c hc).2 ⟨d, hbelow⟩⟩⟩

/-! ## The search with a list of pending nodes -/

/-- The children of node `i` that are looked through. -/
def openChildren (table : RuleTable) (t : SyntaxTree) (i : Nat) : List Nat :=
  (t.children i).filter fun c => table.ruleFor t c == .skip

/-- The number of nodes that are pending or lie below one that is. -/
def pendingSize (t : SyntaxTree) (pending : List Nat) : Nat :=
  (pending.flatMap fun i => i :: t.descendants i).length

/-- A node outweighs its children together, so the stack of the search gets lighter with every node
taken off. -/
theorem pendingSize_openChildren_lt (table : RuleTable) (t : SyntaxTree) (i : Nat)
    (pending : List Nat) :
    pendingSize t ((table.openChildren t i).reverse ++ pending) < pendingSize t (i :: pending) := by
  have hreverse : pendingSize t (table.openChildren t i).reverse =
      pendingSize t (table.openChildren t i) :=
    ((List.reverse_perm _).flatMap_right _).length_eq
  have hopen : pendingSize t (table.openChildren t i) ≤ (t.descendants i).length := by
    rw [SyntaxTree.descendants_eq]
    exact (List.filter_sublist.flatMap _).length_le
  simp only [pendingSize, List.flatMap_append, List.flatMap_cons, List.length_append,
    List.length_cons] at *
  omega

/-- Work off the pending nodes: look for a block among the children of the first one, and put those
that are looked through in its place, the last child first. -/
def searchBlock (table : RuleTable) (t : SyntaxTree) (blocks : List String) : List Nat → Bool
  | [] => false
  | i :: pending =>
    (t.children i).any (fun c => blocks.contains (t.node c).kind) ||
      table.searchBlock t blocks ((table.openChildren t i).reverse ++ pending)
  termination_by pending => pendingSize t pending
  decreasing_by exact pendingSize_openChildren_lt table t i pending

/-- A block is among the children, or below one that is looked through. -/
theorem hasBlock_eq_openChildren (table : RuleTable) (t : SyntaxTree) (blocks : List String)
    (i : Nat) : table.hasBlock t blocks i =
      ((t.children i).any (fun c => blocks.contains (t.node c).kind) ||
        (table.openChildren t i).any (table.hasBlock t blocks)) := by
  rw [hasBlock_eq, openChildren, List.any_filter, Bool.eq_iff_iff, Bool.or_eq_true]
  simp only [List.any_eq_true, Bool.or_eq_true, and_or_left, exists_or]

/-- Every pending node is searched, in whatever order. -/
theorem searchBlock_eq (table : RuleTable) (t : SyntaxTree) (blocks : List String)
    (pending : List Nat) :
    table.searchBlock t blocks pending = pending.any (table.hasBlock t blocks) := by
  fun_induction searchBlock table t blocks pending with
  | case1 => rfl
  | case2 i pending ih =>
    rw [ih, List.any_append, List.any_reverse, List.any_cons, hasBlock_eq_openChildren,
      Bool.or_assoc]

/-! ## Verdicts -/

/-- A compound node of a collapsing kind collapses, or has more than one line or a block. -/
theorem verdict_of_compound (hrule : table.ruleFor t i = .compound)
    (hcollapse : table.collapse = some c) (hkind : (t.node i).kind ∈ c.kinds) :
    ((t.node i).lines.isSingleLine = true ∧ table.hasBlock t c.blocks i = false) ∧
        table.verdict t i = .statement c.keepCompound false ∨
      ((t.node i).lines.isSingleLine = false ∨ table.hasBlock t c.blocks i = true) ∧
        table.verdict t i = .statement true true := by
  cases hline : (t.node i).lines.isSingleLine with
  | false => simp [verdict, classify, hrule, openRuling, collapse?, hcollapse, Option.filter, hline]
  | true =>
    cases hblock : table.hasBlock t c.blocks i with
    | false =>
      simp [verdict, classify, hrule, openRuling, collapse?, hcollapse, Option.filter, hkind, hline,
        hblock]
    | true =>
      simp [verdict, classify, hrule, openRuling, collapse?, hcollapse, Option.filter, hblock]

end RuleTable

namespace Language

variable {language : Language} {c : Collapse} {t : SyntaxTree} {i : Nat} {compound descend : Bool}

/-- Kinds that collapse are compound in every language that has any, and rules for positions then
look through a node or seal it. -/
theorem collapse_entries (language : Language) : ∀ c ∈ language.rules.collapse,
    (∀ kind ∈ c.kinds, language.rules.kindRule? kind = some .compound) ∧
    ∀ entry ∈ language.rules.fields, entry.rule = .skip ∨ entry.rule = .sealed := by
  cases language <;> decide

/-- A language that keeps the compound flag of what collapses knows no blocks that would keep it
open. -/
theorem blocks_of_keepCompound (language : Language) : ∀ c ∈ language.rules.collapse,
    c.keepCompound = true → c.blocks = [] := by
  cases language <;> decide

/-- A node of a collapsing kind that becomes a statement is compound by rule. -/
theorem ruleFor_of_collapsing (hc : c ∈ language.rules.collapse) (hkind : (t.node i).kind ∈ c.kinds)
    (hv : language.rules.verdict t i = .statement compound descend) :
    language.rules.ruleFor t i = .compound := by
  obtain ⟨hkinds, hfields⟩ := language.collapse_entries c hc
  have hby : ∀ entry ∈ language.rules.fields, entry.rule ≠ .byKind := by
    intro entry hentry
    rcases hfields entry hentry with h | h <;> simp [h]
  rcases RuleTable.resolve_of_kindRule? (hkinds _ hkind) hby
    ((t.node i).parent.map fun p => (t.node p).kind) (t.node i).field with h | ⟨entry, hentry, h⟩
  · exact h
  · -- A field looks through the node or seals it, so it is no statement.
    change entry.rule = language.rules.ruleFor t i at h
    rcases hfields entry hentry with h' | h' <;>
      simp [RuleTable.verdict, RuleTable.classify, ← h, h'] at hv

end Language

/-! ## Statements of collapsing kinds -/

namespace Reduction

section Collapsing

variable {r : Reduction} {o : Outline} {language : Language} {c : Collapse} {i k : Nat}
  (hs : r.Shows r.selection o) (htable : r.table = language.rules)
  (hc : c ∈ language.rules.collapse) (hi : r.selection[k]? = some i)
  (hkind : (o.node k).kind ∈ c.kinds)

include hs htable hc hi hkind

/-- A statement of a collapsing kind on one line and without a block is collapsed; any other is
descended into. -/
theorem Shows.verdict_of_collapsing :
    ((r.tree.node i).lines.isSingleLine = true ∧ r.table.hasBlock r.tree c.blocks i = false) ∧
        r.table.verdict r.tree i = .statement c.keepCompound false ∨
      ((r.tree.node i).lines.isSingleLine = false ∨ r.table.hasBlock r.tree c.blocks i = true) ∧
        r.table.verdict r.tree i = .statement true true := by
  obtain ⟨descend, hv⟩ := hs.verdict hi
  rw [hs.kind_eq hi] at hkind
  rw [htable] at hv ⊢
  exact RuleTable.verdict_of_compound (Language.ruleFor_of_collapsing hc hkind hv) hc hkind

theorem Shows.compound_of_collapsing : (o.node k).compound = true ↔
    c.keepCompound = true ∨ (r.tree.node i).lines.isSingleLine = false ∨
      r.table.hasBlock r.tree c.blocks i = true := by
  obtain ⟨descend, hv⟩ := hs.verdict hi
  rcases hs.verdict_of_collapsing htable hc hi hkind with ⟨⟨hline, hblock⟩, hv'⟩ | ⟨hopen, hv'⟩
  · rw [← (Verdict.statement.inj (hv'.symm.trans hv)).1, hline, hblock]
    simp
  · rw [← (Verdict.statement.inj (hv'.symm.trans hv)).1]
    simp [hopen]

/-- A statement of a collapsing kind has children only if it has more than one line, or a block. -/
theorem Shows.open_of_child (hl : o.Linked) (hchildren : (o.node k).children ≠ #[]) :
    (r.tree.node i).lines.isSingleLine = false ∨ r.table.hasBlock r.tree c.blocks i = true := by
  obtain ⟨j, hj⟩ := Array.exists_mem_of_ne_empty _ hchildren
  obtain ⟨i', hi', hv⟩ := hs.verdict_of_child hl hj
  obtain rfl : i = i' := Option.some.inj (hi.symm.trans hi')
  rcases hs.verdict_of_collapsing htable hc hi hkind with ⟨-, hv'⟩ | ⟨hopen, -⟩
  · exact absurd (Verdict.statement.inj (hv'.symm.trans hv)).2 Bool.false_ne_true
  · exact hopen

end Collapsing

/-- **Collapse on one line.** The search for a block is exact, also with a list of pending nodes.
All languages but Go and Ruby collapse some kinds. Outside Python a statement of such a kind is
compound if its node has more than one line or a block, and otherwise it has no children; in Python
it is always compound, and has children only on more than one line. -/
theorem collapse_on_one_line :
    (∀ (table : RuleTable) (t : SyntaxTree) (blocks : List String) (x : Nat),
      (table.hasBlock t blocks x = true ↔ ∃ d, table.IsBlockOf t blocks x d) ∧
      table.searchBlock t blocks [x] = table.hasBlock t blocks x) ∧
    ∀ language : Language,
      language.rules.collapse.map (·.keepCompound) = (match language with
        | .go | .ruby => none
        | .python => some true
        | _ => some false) ∧
      ∀ r : Reduction, r.table = language.rules →
        (r.signal = .never → ∃ o, r.outline = .ok o) ∧
        ∀ o, r.outline = .ok o → r.Shows r.selection o ∧
          ∀ c ∈ language.rules.collapse, ∀ k i, r.selection[k]? = some i →
            (o.node k).kind ∈ c.kinds →
              (c.keepCompound = false →
                ((o.node k).compound = true ↔ (r.tree.node i).lines.isSingleLine = false ∨
                  ∃ d, r.table.IsBlockOf r.tree c.blocks i d) ∧
                ((o.node k).compound = false → (o.node k).children = #[])) ∧
              (c.keepCompound = true → (o.node k).compound = true ∧
                ((o.node k).children ≠ #[] → (r.tree.node i).lines.isSingleLine = false)) := by
  refine ⟨fun table t blocks x => ⟨table.hasBlock_iff t blocks x, ?_⟩, fun language => ⟨?_, ?_⟩⟩
  · rw [RuleTable.searchBlock_eq]
    simp
  · cases language <;> rfl
  · intro r htable
    refine ⟨fun hn => (exists_outline hn).imp fun _ h => h.1, fun o ho => ?_⟩
    obtain ⟨hs, hl⟩ := shows_of_outline ho
    refine ⟨hs, fun c hc k i hi hkind => ?_⟩
    have hcompound := hs.compound_of_collapsing htable hc hi hkind
    have hopen := hs.open_of_child htable hc hi hkind hl
    refine ⟨fun hkeep => ?_, fun hkeep => ?_⟩
    · simp only [hkeep, Bool.false_eq_true, false_or] at hcompound
      refine ⟨by rw [hcompound, RuleTable.hasBlock_iff], fun hatomic => ?_⟩
      by_contra hchildren
      rw [← hcompound, hatomic] at hopen
      exact Bool.false_ne_true (hopen hchildren)
    · refine ⟨hcompound.2 (.inl hkeep), fun hchildren => (hopen hchildren).resolve_right ?_⟩
      rw [language.blocks_of_keepCompound c hc hkeep, RuleTable.hasBlock_iff]
      rintro ⟨d, -, hmem, -⟩
      cases hmem

/-- Two conditionals in PHP, each on one line. The block of the first is behind its colon and itself
looked through; the second has none. -/
def colonBlock : Reduction where
  table := .php
  tree := .ofNodes
    #[⟨"program", none, ⟨0, 50⟩, ⟨0, 50⟩, ⟨0, 1⟩, none⟩,
      ⟨"if_statement", none, ⟨0, 28⟩, ⟨0, 28⟩, ⟨0, 0⟩, some 0⟩,
      ⟨"colon_block", some "body", ⟨9, 21⟩, ⟨9, 21⟩, ⟨0, 0⟩, some 1⟩,
      ⟨"echo_statement", none, ⟨11, 18⟩, ⟨11, 18⟩, ⟨0, 0⟩, some 2⟩,
      ⟨"if_statement", none, ⟨29, 50⟩, ⟨29, 50⟩, ⟨1, 1⟩, some 0⟩,
      ⟨"echo_statement", some "body", ⟨37, 44⟩, ⟨37, 44⟩, ⟨1, 1⟩, some 4⟩] (by decide)
  range := ⟨0, 50⟩

theorem collapse_on_one_line_colonBlock : colonBlock.selection = [1, 3, 4] ∧
    ∃ o, colonBlock.outline = .ok o ∧ (o.node 0).kind = "if_statement" ∧
      (o.node 0).compound = true ∧ RuleTable.php.hasBlock colonBlock.tree ["colon_block"] 1 = true ∧
      (o.node 2).kind = "if_statement" ∧ (o.node 2).compound = false ∧
      (o.node 2).children = #[] := by
  have hselection : colonBlock.selection = [1, 3, 4] := by decide +kernel
  have houtline : colonBlock.outline = .ok
      ⟨#[⟨"if_statement", ⟨0, 28⟩, ⟨0, 28⟩, true, none, #[1]⟩,
        ⟨"echo_statement", ⟨11, 18⟩, ⟨11, 18⟩, false, some 0, #[]⟩,
        ⟨"if_statement", ⟨29, 50⟩, ⟨29, 50⟩, false, none, #[]⟩], #[0, 2]⟩ := by
    decide +kernel
  have hblock : RuleTable.php.IsBlockOf colonBlock.tree ["colon_block"] 1 2 := by
    exact ⟨by decide +kernel, by decide +kernel, by decide +kernel⟩
  obtain ⟨hsearch, hlanguages⟩ := collapse_on_one_line
  obtain ⟨-, hstatements⟩ := ((hlanguages .php).2 colonBlock rfl).2 _ houtline
  have hfirst := (hstatements _ rfl 0 1 (by rw [hselection]; rfl) (by decide)).1 rfl
  have hsecond := (hstatements _ rfl 2 4 (by rw [hselection]; rfl) (by decide)).1 rfl
  refine ⟨hselection, _, houtline, rfl, hfirst.1.2 (.inr ⟨2, hblock.1, ?_, hblock.2.2⟩),
    (hsearch _ _ _ _).1.2 ⟨2, hblock⟩, rfl, rfl, hsecond.2 rfl⟩
  decide +kernel

end Reduction

end StatementOutline
