import StatementOutline.Proofs.Span
import StatementOutline.Proofs.SyntaxTree.Ancestry

/-!
# Nested syntax trees

A tree is `Nested` when spans do not run backwards, every child lies within its parent, and of two
neighbouring children the second starts where the first has stopped, or later. Then of two nodes in
depth-first order the first lies above the second or has stopped before it
(`Nested.before_of_precedes`): touching, gaps and zero width are all that is left open.
-/

namespace StatementOutline.SyntaxTree

variable {t : SyntaxTree} {a b i j p : Nat}

/-- Every child lies within its parent. -/
def ChildrenInside (t : SyntaxTree) : Prop :=
  ∀ i p, t.parent? i = some p → (t.node p).span.encloses (t.node i).span = true

/-- Spans run forwards, children lie within their parents, and neighbouring children are in order
and apart. -/
structure Nested (t : SyntaxTree) : Prop where
  start_le_stop : ∀ i, i < t.size → (t.node i).span.start ≤ (t.node i).span.stop
  inside : t.ChildrenInside
  apart : ∀ i, (t.children i).IsChain fun c d => (t.node c).span.Before (t.node d).span

/-- If children lie inside their parents, a node lies inside all its ancestors. -/
theorem ChildrenInside.encloses (h : t.ChildrenInside) (ha : a ∈ t.ancestors i) :
    (t.node a).span.encloses (t.node i).span = true := by
  induction i using Nat.strongRecOn with
  | ind i ih =>
    obtain ⟨p, hp, rfl | ha⟩ := (mem_climb t.falling).1 ha
    · exact h i a hp
    · exact Span.encloses_trans (ih p (parent_lt hp).1 ha) (h i p hp)

theorem Nested.stop_le (h : t.Nested) (hij : Under t.parent? i j) :
    (t.node j).span.stop ≤ (t.node i).span.stop := by
  rcases hij with rfl | hij
  · exact Nat.le_refl _
  · exact (Span.encloses_iff.1 (h.inside.encloses hij)).2

theorem Nested.start_le (h : t.Nested) (hij : Under t.parent? i j) :
    (t.node i).span.start ≤ (t.node j).span.start := by
  rcases hij with rfl | hij
  · exact Nat.le_refl _
  · exact (Span.encloses_iff.1 (h.inside.encloses hij)).1

theorem Nested.pairwise_children (h : t.Nested) (i : Nat) :
    (t.children i).Pairwise fun c d => (t.node c).span.Before (t.node d).span :=
  Span.pairwise_before (f := fun c => (t.node c).span)
    (fun c hc => h.start_le_stop c (lt_size_of_mem_children hc)) (h.apart i)

/-- Of two nodes in depth-first order, the first lies above the second or stops before it. -/
theorem Nested.before_of_precedes (h : t.Nested) (hab : t.Precedes a b) :
    a ∈ t.ancestors b ∨ (t.node a).span.Before (t.node b).span := by
  rcases hab with hab | ⟨p, c, hc, d, hd, hcd, hca, hdb⟩
  · exact .inl hab
  · have hbefore : (t.node c).span.Before (t.node d).span := by
      obtain ⟨m, hm, rfl⟩ := List.getElem_of_mem hc
      obtain ⟨k, hk, rfl⟩ := List.getElem_of_mem hd
      have hmk : m < k := by
        rcases Nat.lt_trichotomy m k with hmk | rfl | hkm
        · exact hmk
        · exact absurd hcd (Nat.lt_irrefl _)
        · have := List.pairwise_iff_getElem.1 (t.pairwise_children p) k m hk hm hkm
          omega
      exact List.pairwise_iff_getElem.1 (h.pairwise_children p) m k hm hk hmk
    have ha := h.stop_le hca
    have hb := h.start_le hdb
    unfold Span.Before at *
    right
    omega

end StatementOutline.SyntaxTree
