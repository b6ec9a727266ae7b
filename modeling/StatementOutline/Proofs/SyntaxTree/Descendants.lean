import StatementOutline.Proofs.SyntaxTree.Ancestry
import StatementOutline.SyntaxTree.Rows
import StatementOutline.Verdict

/-!
# Descendants one by one

The nodes below a node can be had one by one from a stack (`Yields`): take the top off, put its
children in its place with the first of them on top, and go on until nothing is left. This comes to
an end in every tree, and what it yields is the list of descendants (`yields_descendants`), though
the stack can grow and shrink on the way and node ids need not follow the preorder.

In a tree that is read from a listing they do (`preordered_ofRows`). There the lineage of a row
holds nodes that stand one above the other, and all of them at or above the node that came last
(`Lineal`). So the nodes below a node have the ids that follow its own (`descendants_eq_range'`).
-/

namespace StatementOutline

namespace SyntaxTree

variable {t : SyntaxTree} {a b i x : Nat} {stack out : List Nat}

/-! ## A stack of pending nodes -/

/-- What a stack of pending nodes yields until it is empty; its top stands last. -/
inductive Yields (t : SyntaxTree) : List Nat → List Nat → Prop
  | done : t.Yields [] []
  | pop {stack : List Nat} {i : Nat} {out : List Nat}
      (next : t.Yields (stack ++ (t.children i).reverse) out) : t.Yields (stack ++ [i]) (i :: out)

/-- What a stack yields is determined: its top comes next. -/
theorem Yields.unique {out' : List Nat} (h : t.Yields stack out) (h' : t.Yields stack out') :
    out = out' := by
  induction h generalizing out' with
  | done =>
    generalize hstack : ([] : List Nat) = stack at h'
    cases h' with
    | done => rfl
    | pop next => simp at hstack
  | @pop stack i out next ih =>
    generalize hstack : stack ++ [i] = stack' at h'
    cases h' with
    | done => simp at hstack
    | pop next' =>
      obtain ⟨rfl, hi⟩ := List.append_inj' hstack rfl
      cases hi
      rw [ih next']

/-- If each of some nodes comes off a stack with everything below it, so do all of them, one after
the other. -/
theorem Yields.pushAll {cs : List Nat}
    (hcs : ∀ c ∈ cs, ∀ {stack out}, t.Yields stack out →
      t.Yields (stack ++ [c]) (c :: t.descendants c ++ out))
    (h : t.Yields stack out) :
    t.Yields (stack ++ cs.reverse) ((cs.flatMap fun c => c :: t.descendants c) ++ out) := by
  induction cs with
  | nil => simpa using h
  | cons c cs ih =>
    have hrest := ih fun d hd => hcs d (List.mem_cons_of_mem c hd)
    have htop := hcs c List.mem_cons_self hrest
    rw [List.append_assoc stack, ← List.append_assoc (c :: _)] at htop
    rwa [List.reverse_cons, List.flatMap_cons]

/-- A node on top of a stack comes with everything below it, before the rest of the stack. -/
theorem Yields.push (i : Nat) : ∀ {stack out : List Nat}, t.Yields stack out →
    t.Yields (stack ++ [i]) (i :: t.descendants i ++ out) := by
  induction i using child_induction t with
  | step i ih =>
    intro stack out h
    rw [descendants_eq, List.cons_append]
    exact .pop (h.pushAll ih)

/-- The stack that starts with the children of a node yields what is below the node, and nothing
else. -/
theorem yields_descendants : t.Yields (t.children x).reverse out ↔ out = t.descendants x := by
  have hyields : t.Yields (t.children x).reverse (t.descendants x) := by
    have hchildren : ∀ c ∈ t.children x, ∀ {stack out}, t.Yields stack out →
        t.Yields (stack ++ [c]) (c :: t.descendants c ++ out) := fun c _ => Yields.push c
    have hall := Yields.done.pushAll hchildren
    rwa [List.nil_append, List.append_nil, ← descendants_eq] at hall
  constructor
  · intro h
    exact h.unique hyields
  · rintro rfl
    exact hyields

/-! ## Ids in preorder -/

/-- Where ids follow a preorder, a node that precedes another has the smaller id. -/
theorem Precedes.lt (h : Preordered t.parent?) (hab : t.Precedes a b) : a < b := by
  rcases hab with hab | ⟨p, c, hc, d, hd, hcd, hca, hdb⟩
  · exact lt_of_mem_ancestors hab
  · have hdle := hdb.le t.falling
    refine Nat.lt_of_not_le fun hba => ?_
    rcases hca with rfl | hca
    · omega
    · -- Here `d` is numbered between `c` and a node below `c`.
      have hbelow := mem_climb_of_preordered t.falling h hcd (by omega) hca
      exact sibling_not_mem_climb t.falling
        ((mem_children.1 hc).trans (mem_children.1 hd).symm) hbelow

/-- An increasing list that starts behind `x` and leaves nothing out. -/
theorem eq_range'_of_gapless {l : List Nat} (hl : l.Pairwise (· < ·)) (hlo : ∀ j ∈ l, x < j)
    (hgap : ∀ j ∈ l, ∀ i, x < i → i < j → i ∈ l) : l = List.range' (x + 1) l.length := by
  induction l generalizing x with
  | nil => rfl
  | cons b l ih =>
    obtain ⟨hb, htail⟩ := List.pairwise_cons.1 hl
    have hxb := hlo b List.mem_cons_self
    have hnext : b = x + 1 := by
      rcases Nat.eq_or_lt_of_le (Nat.succ_le_of_lt hxb) with h | hlt
      · exact h.symm
      · have hmem := hgap b List.mem_cons_self (x + 1) (Nat.lt_succ_self x) hlt
        rcases List.mem_cons.1 hmem with h | h
        · exact h.symm
        · exact absurd hlt (Nat.lt_asymm (hb _ h))
    subst hnext
    rw [List.length_cons, List.range'_succ]
    congr 1
    refine ih htail hb fun j hj i hi hij => ?_
    rcases List.mem_cons.1 (hgap j (List.mem_cons_of_mem _ hj) i (by omega) hij) with h | h
    · omega
    · exact h

/-- Where ids follow a preorder, the nodes below a node are numbered without a gap behind it. -/
theorem descendants_eq_range' (h : Preordered t.parent?) (x : Nat) :
    t.descendants x = List.range' (x + 1) (t.descendants x).length := by
  have hsorted := (List.pairwise_cons.1 (t.pairwise_cons_descendants x)).2
  apply eq_range'_of_gapless (hsorted.imp (Precedes.lt h))
  · intro j hj
    exact lt_of_mem_ancestors (mem_descendants.1 hj)
  · intro j hj i hxi hij
    exact mem_descendants.2 (mem_climb_of_preordered t.falling h hxi (Nat.le_of_lt hij)
      (mem_descendants.1 hj))

end SyntaxTree

/-! ## Trees from listed rows -/

/-- A lineage in front of node `next`: its entries stand one above the other, from the innermost
level out, and at or above the node before. -/
structure Lineal (link : Nat → Option Nat) (next : Nat) (lineage : List (Option Nat)) : Prop where
  rising : lineage.Pairwise fun inner outer => ∀ q ∈ outer, ∃ p ∈ inner, Under link q p
  under : ∀ p, some p ∈ lineage → Under link p (next - 1)

namespace Lineal

variable {link : Nat → Option Nat} {next depth : Nat} {lineage : List (Option Nat)}

theorem levelsAbove (h : Lineal link next lineage) (depth : Nat) :
    Lineal link next (levelsAbove lineage depth) :=
  ⟨h.rising.sublist (List.drop_sublist _ _), fun p hp => h.under p (mem_levelsAbove hp)⟩

/-- Whoever is in a lineage stands at or above its innermost entry that is a node. -/
theorem exists_head (h : Lineal link next lineage) {q : Nat} (hq : some q ∈ lineage) :
    ∃ p, lineage.head?.join = some p ∧ Under link q p := by
  cases lineage with
  | nil => cases hq
  | cons entry lineage =>
    rcases List.mem_cons.1 hq with rfl | hq
    · exact ⟨q, rfl, .inl rfl⟩
    · obtain ⟨p, hp, hqp⟩ := (List.pairwise_cons.1 h.rising).1 _ hq q rfl
      exact ⟨p, hp, hqp⟩

/-- A named row becomes the innermost entry, and everything in the lineage is above its node. -/
theorem cons_next (hl : Falling link) (h : Lineal link next lineage)
    (hnext : link next = lineage.head?.join) : Lineal link (next + 1) (some next :: lineage) := by
  have habove : ∀ q, some q ∈ lineage → Under link q next := by
    intro q hq
    obtain ⟨p, hp, hqp⟩ := h.exists_head hq
    exact hqp.trans hl (.inr (mem_climb_of_link hl (hnext.trans hp)))
  refine ⟨List.pairwise_cons.2 ⟨?_, h.rising⟩, fun p hp => ?_⟩
  · rintro _ hq q rfl
    exact ⟨next, rfl, habove q hq⟩
  · rcases List.mem_cons.1 hp with hp | hp
    · cases hp
      exact .inl rfl
    · exact habove p hp

/-- An anonymous row is entered with the node that its rows will belong to. -/
theorem cons_head (h : Lineal link next lineage) :
    Lineal link next (lineage.head?.join :: lineage) := by
  refine ⟨List.pairwise_cons.2 ⟨?_, h.rising⟩, fun p hp => ?_⟩
  · rintro _ hq q rfl
    exact h.exists_head hq
  · rcases List.mem_cons.1 hp with hp | hp
    · exact h.under p (mem_of_head?_join hp.symm)
    · exact h.under p hp

end Lineal

/-- The parent of every node that is read is the node before it or stands above that. -/
theorem under_of_namedNodes {map : UnitMap} {link : Nat → Option Nat} (hl : Falling link)
    (rows : List SyntaxRow) : ∀ {next : Nat} {lineage : List (Option Nat)},
      Lineal link next lineage →
      (∀ k node, (namedNodes map next lineage rows)[k]? = some node →
        link (next + k) = node.parent) →
      ∀ {k : Nat} {node : SyntaxNode}, (namedNodes map next lineage rows)[k]? = some node →
        ∀ p ∈ node.parent, Under link p (next + k - 1) := by
  induction rows with
  | nil => intro next lineage _ _ k node h; cases h
  | cons row rows ih =>
    intro next lineage hlineage hlink k node h p hp
    have habove := hlineage.levelsAbove row.depth
    rw [namedNodes] at h hlink
    split at h
    · next hnamed =>
      rw [if_pos hnamed] at hlink
      cases k with
      | zero =>
        cases h
        exact habove.under p (mem_of_head?_join hp)
      | succ k =>
        have hnext : link next = (levelsAbove lineage row.depth).head?.join := hlink 0 _ rfl
        rw [← Nat.add_assoc, Nat.add_right_comm]
        refine ih (habove.cons_next hl hnext) (fun m node hm => ?_) h p hp
        rw [Nat.add_right_comm, Nat.add_assoc]
        exact hlink (m + 1) node hm
    · next hnamed =>
      rw [if_neg hnamed] at hlink
      exact ih habove.cons_head hlink h p hp

namespace SyntaxTree

/-- Trees that are read from a listing, whatever the rows, are numbered in preorder. -/
theorem preordered_ofRows (map : UnitMap) (rows : List SyntaxRow) :
    Preordered (ofRows map rows).parent? := by
  have hparent : ∀ k, (ofRows map rows).parent? k =
      (namedNodes map 0 [] rows)[k]?.bind (·.parent) := fun k => by
    show (namedNodes map 0 [] rows).toArray[k]?.bind _ = _
    rw [List.getElem?_toArray]
  intro k p hp
  rw [hparent] at hp
  obtain ⟨node, hnode, hp⟩ := Option.bind_eq_some_iff.1 hp
  have hunder := under_of_namedNodes (falling _) rows ⟨.nil, nofun⟩
    (fun m node hm => by rw [Nat.zero_add, hparent, hm, Option.bind_some]) hnode p hp
  rwa [Nat.zero_add] at hunder

/-- **Descendants are exact.** A stack that starts with the children of a node comes to an end, and
yields the descendants of the node: all nodes that have it among their ancestors, each once and
depth first, and not the node itself. Hence a node contains some kinds exactly if a node below it is
of one of them. In a tree read from a listing the descendants have the ids that follow the node's
own. -/
theorem descendants_exact :
    (∀ (t : SyntaxTree) (x : Nat),
      (∀ out, t.Yields (t.children x).reverse out ↔ out = t.descendants x) ∧
      (∀ j, j ∈ t.descendants x ↔ x ∈ t.ancestors j) ∧
      (t.descendants x).Nodup ∧ x ∉ t.descendants x ∧
      (t.descendants x).Pairwise t.Precedes ∧
      ∀ kinds, (Shape.contains kinds).holds t x = true ↔
        ∃ j, x ∈ t.ancestors j ∧ (t.node j).kind ∈ kinds) ∧
    ∀ (map : UnitMap) (rows : List SyntaxRow) (x : Nat), (ofRows map rows).descendants x =
      List.range' (x + 1) ((ofRows map rows).descendants x).length := by
  refine ⟨fun t x => ?_, fun map rows => descendants_eq_range' (preordered_ofRows map rows)⟩
  have hsorted := (List.pairwise_cons.1 (t.pairwise_cons_descendants x)).2
  refine ⟨fun out => yields_descendants, fun j => mem_descendants, hsorted.imp Precedes.ne,
    fun hx => ?_, hsorted, fun kinds => ?_⟩
  · exact Nat.lt_irrefl x (lt_of_mem_ancestors (mem_descendants.1 hx))
  · simp only [Shape.holds, List.any_eq_true, List.contains_iff_mem, mem_descendants]

end SyntaxTree

end StatementOutline
