import StatementOutline.Proofs.Climb
import StatementOutline.SyntaxTree.Basic

/-!
# Ancestors, descendants and the preorder of a syntax tree

`ancestors` climbs the parent links, `descendants` goes down the lists of children, and the two
describe one relation (`mem_descendants`). The nodes reachable from the root form the `preorder` of
the tree, which lists them depth first (`pairwise_preorder`) and hence each once (`Precedes.ne`).

Node ids need not follow the preorder: a parent has a smaller id than its child, and that is all.
-/

namespace StatementOutline.SyntaxTree

variable {t : SyntaxTree} {a b c d i j : Nat}

theorem node_of_size_le (h : t.size ≤ i) : t.node i = default := by
  simp [node, Array.getElem?_eq_none h]

theorem falling (t : SyntaxTree) : Falling t.parent? :=
  fun _ _ h => (parent_lt h).1

/-- The strict ancestors of node `i`, innermost first. -/
def ancestors (t : SyntaxTree) (i : Nat) : List Nat :=
  climb t.parent? i

theorem ancestors_of_mem_children (h : c ∈ t.children i) :
    t.ancestors c = i :: t.ancestors i :=
  climb_of_some t.falling (mem_children.1 h)

theorem lt_of_mem_ancestors (h : a ∈ t.ancestors i) : a < i :=
  lt_of_mem_climb t.falling h

theorem lt_size_of_mem_ancestors (h : a ∈ t.ancestors i) : i < t.size := by
  obtain ⟨p, hp, -⟩ := (mem_climb t.falling).1 h
  exact (parent_lt hp).2

/-- Below at most one of the children of a node stands any given node. -/
theorem child_unique (hc : c ∈ t.children i) (hd : d ∈ t.children i) (hcj : Under t.parent? c j)
    (hdj : Under t.parent? d j) : c = d :=
  sibling_unique t.falling ((mem_children.1 hc).trans (mem_children.1 hd).symm) hcj hdj

/-! ## Depth-first order -/

/-- Node `a` comes before `b` depth first: it lies above `b`, or the two lie under different
children of one node, `a` under the earlier one. -/
def Precedes (t : SyntaxTree) (a b : Nat) : Prop :=
  a ∈ t.ancestors b ∨ ∃ p, ∃ c ∈ t.children p, ∃ d ∈ t.children p,
    c < d ∧ Under t.parent? c a ∧ Under t.parent? d b

theorem Precedes.ne (h : t.Precedes a b) : a ≠ b := by
  rintro rfl
  rcases h with h | ⟨p, c, hc, d, hd, hcd, hca, hda⟩
  · exact Nat.lt_irrefl a (lt_of_mem_ancestors h)
  · exact Nat.ne_of_lt hcd (child_unique hc hd hca hda)

/-- What precedes a node does not stand below it. -/
theorem Precedes.not_mem_ancestors (h : t.Precedes a b) : b ∉ t.ancestors a := by
  intro hba
  rcases h with h | ⟨p, c, hc, d, hd, hcd, hca, hdb⟩
  · exact Nat.lt_asymm (lt_of_mem_ancestors h) (lt_of_mem_ancestors hba)
  · exact Nat.ne_of_lt hcd (child_unique hc hd hca (hdb.trans t.falling (.inr hba)))

/-- The preorder does not go both ways: the two branches at which two nodes part determine which of
them is first. -/
theorem Precedes.asymm (h : t.Precedes a b) : ¬ t.Precedes b a := by
  intro h'
  rcases h' with hba | ⟨q, c', hc', d', hd', hcd', hc'b, hd'a⟩
  · exact h.not_mem_ancestors hba
  · rcases h with hab | ⟨p, c, hc, d, hd, hcd, hca, hdb⟩
    · exact Precedes.not_mem_ancestors (.inr ⟨q, c', hc', d', hd', hcd', hc'b, hd'a⟩) hab
    · -- The lines to the two nodes part in one place only, where `c` cannot come both before and
      -- behind `d`.
      have hbelow : ∀ {x e v : Nat}, e ∈ t.children x → Under t.parent? e v → x ∈ t.ancestors v :=
        fun he hev => (mem_climb_iff_under t.falling).2 ⟨_, mem_children.1 he, hev⟩
      have hqp : Under t.parent? q p :=
        under_of_mem_both t.falling (mem_children.1 hc) (mem_children.1 hd) (Nat.ne_of_lt hcd) hca
          hdb (hbelow hd' hd'a) (hbelow hc' hc'b)
      have hpq : Under t.parent? p q :=
        under_of_mem_both t.falling (mem_children.1 hc') (mem_children.1 hd') (Nat.ne_of_lt hcd')
          hc'b hd'a (hbelow hd hdb) (hbelow hc hca)
      obtain rfl : p = q := Nat.le_antisymm (hpq.le t.falling) (hqp.le t.falling)
      have hcd'' := child_unique hc hd' hca hd'a
      have hdc'' := child_unique hd hc' hdb hc'b
      omega

/-- What comes between a node and one below it is below it as well. -/
theorem Precedes.mem_ancestors (hab : t.Precedes a b) (hbj : t.Precedes b j)
    (haj : a ∈ t.ancestors j) : a ∈ t.ancestors b := by
  rcases hbj with hbj | ⟨p, c, hc, d, hd, hcd, hcb, hdj⟩
  · rcases climb_total t.falling haj hbj with rfl | hab' | hba
    · exact absurd rfl hab.ne
    · exact hab'
    · exact absurd hba hab.not_mem_ancestors
  · have hda : ¬ Under t.parent? d a := fun hda =>
      hab.asymm (.inr ⟨p, c, hc, d, hd, hcd, hcb, hda⟩)
    have had : a ∈ t.ancestors d := by
      rcases hdj with rfl | hdj
      · exact haj
      · rcases climb_total t.falling haj hdj with rfl | had | hda'
        · exact absurd (.inl rfl) hda
        · exact had
        · exact absurd (.inr hda') hda
    rw [ancestors_of_mem_children hd, ← ancestors_of_mem_children hc] at had
    rcases hcb with rfl | hcb
    · exact had
    · exact climb_trans t.falling had hcb

/-- In a list in depth-first order, an ancestor stands before its descendants. -/
theorem index_lt_of_mem_ancestors {l : List Nat} (hl : l.Pairwise t.Precedes) {m k : Nat}
    (hm : l[m]? = some a) (hk : l[k]? = some i) (ha : a ∈ t.ancestors i) : m < k := by
  obtain ⟨hml, rfl⟩ := List.getElem?_eq_some_iff.1 hm
  obtain ⟨hkl, rfl⟩ := List.getElem?_eq_some_iff.1 hk
  rcases Nat.lt_trichotomy m k with h | rfl | h
  · exact h
  · exact absurd (lt_of_mem_ancestors ha) (Nat.lt_irrefl _)
  · exact absurd ha (List.pairwise_iff_getElem.1 hl k m hkl hml h).not_mem_ancestors

/-! ## Descendants -/

/-- Induction from the leaves up. Children have larger ids than their parent, so it is on the number
of ids behind that of the node. -/
@[elab_as_elim]
theorem child_induction {motive : Nat → Prop} (t : SyntaxTree)
    (step : ∀ i, (∀ c ∈ t.children i, motive c) → motive i) (i : Nat) : motive i := by
  induction h : t.size - i using Nat.strongRecOn generalizing i with
  | ind n ih => exact step i fun c hc => ih _ (h ▸ ahead_lt hc) c rfl

/-- The recursion over children comes to exactly the nodes that have `i` among their ancestors. -/
theorem mem_descendants : j ∈ t.descendants i ↔ i ∈ t.ancestors j := by
  induction i using child_induction t with
  | step i ih =>
    rw [descendants_eq, ancestors, mem_climb_iff_under t.falling, List.mem_flatMap]
    constructor
    · rintro ⟨c, hc, hj⟩
      exact ⟨c, mem_children.1 hc, (List.mem_cons.1 hj).imp_right (ih c hc).1⟩
    · rintro ⟨c, hc, hj⟩
      have hc := mem_children.2 hc
      exact ⟨c, hc, List.mem_cons.2 (hj.imp_right (ih c hc).2)⟩

theorem mem_cons_descendants : j ∈ i :: t.descendants i ↔ Under t.parent? i j := by
  rw [List.mem_cons, mem_descendants]
  rfl

/-- A node and what is below it are listed in preorder: the node first, then one child after the
other with all below it. -/
theorem pairwise_cons_descendants (t : SyntaxTree) (i : Nat) :
    (i :: t.descendants i).Pairwise t.Precedes := by
  induction i using child_induction t with
  | step i ih =>
    refine List.pairwise_cons.2 ⟨fun j hj => .inl (mem_descendants.1 hj), ?_⟩
    rw [descendants_eq, List.pairwise_flatMap]
    refine ⟨ih, (t.pairwise_children i).imp_of_mem fun {c d} hc hd hcd a ha b hb => ?_⟩
    exact .inr ⟨i, c, hc, d, hd, hcd, mem_cons_descendants.1 ha, mem_cons_descendants.1 hb⟩

/-! ## The preorder -/

/-- The nodes reachable from the root, each before those below it. -/
def preorder (t : SyntaxTree) : List Nat :=
  match t.root? with
  | some root => root :: t.descendants root
  | none => []

/-- Node `i` is the root or lies below it. -/
def Rooted (t : SyntaxTree) (i : Nat) : Prop :=
  i < t.size ∧ (i = 0 ∨ 0 ∈ t.ancestors i)

instance : DecidablePred t.Rooted :=
  fun i => inferInstanceAs (Decidable (i < t.size ∧ (i = 0 ∨ 0 ∈ t.ancestors i)))

theorem root?_eq (t : SyntaxTree) : t.root? = if t.size = 0 then none else some 0 := by
  simp [root?, isEmpty]

/-- The preorder of the tree holds the nodes that hang below the root, itself included. -/
theorem mem_preorder : i ∈ t.preorder ↔ t.Rooted i := by
  unfold preorder Rooted
  rw [root?_eq]
  by_cases h : t.size = 0
  · simp [h]
  · simp only [h, ↓reduceIte, mem_cons_descendants]
    constructor
    · rintro (rfl | hi)
      · exact ⟨Nat.pos_of_ne_zero h, .inl rfl⟩
      · exact ⟨lt_size_of_mem_ancestors hi, .inr hi⟩
    · exact And.right

theorem pairwise_preorder (t : SyntaxTree) : t.preorder.Pairwise t.Precedes := by
  unfold preorder
  split
  · exact pairwise_cons_descendants t _
  · exact .nil

end StatementOutline.SyntaxTree
