import StatementOutline.Proofs.Climb
import StatementOutline.Proofs.Outline.Links
import StatementOutline.Proofs.Span

/-!
# Nested outlines

What a lookup relies on, said of an outline on its own, however it came about. The links agree
(`LinksAgree`): here the lists of children and the list of roots may be in any order. And the spans
are `Nested`: they do not run backwards, every statement lies within its parent, and the roots, like
the children of every statement, are in order and apart.
-/

namespace StatementOutline.Outline

variable {o : Outline} {i j p : Nat}

/-- The parent that statement `i` names. -/
def parentLink (o : Outline) (i : Nat) : Option Nat :=
  (o.node i).parent

/-- Lists of children and the list of roots hold the ids that the parents say, in whatever order,
and a parent has the smaller id. -/
structure LinksAgree (o : Outline) : Prop where
  falling : Falling o.parentLink
  mem_children : ∀ i j, j ∈ (o.node i).children ↔ j < o.size ∧ (o.node j).parent = some i
  mem_roots : ∀ j, j ∈ o.roots ↔ j < o.size ∧ (o.node j).parent = none

theorem Linked.linksAgree (h : o.Linked) : o.LinksAgree where
  falling _ _ hp := h.parent_lt hp
  mem_children _ _ := h.mem_children
  mem_roots _ := h.mem_roots

/-- Spans run forwards, statements lie within their parents, and neighbours among the roots and
among the children of a statement are in order and apart. -/
structure Nested (o : Outline) : Prop where
  start_le_stop : ∀ i, i < o.size → (o.node i).span.start ≤ (o.node i).span.stop
  inside : ∀ i p, (o.node i).parent = some p →
    (o.node p).span.encloses (o.node i).span = true
  roots_apart : o.roots.toList.IsChain fun a b => (o.node a).span.Before (o.node b).span
  children_apart : ∀ i,
    (o.node i).children.toList.IsChain fun a b => (o.node a).span.Before (o.node b).span

theorem lt_size_of_parent (h : (o.node i).parent = some p) : i < o.size := by
  rcases Nat.lt_or_ge i o.size with hi | hi
  · exact hi
  · rw [node_of_size_le hi] at h
    cases h

/-- Only the statements in the table have to be looked at. -/
theorem linksAgree_iff : o.LinksAgree ↔
    (∀ i < o.size, ∀ p ∈ (o.node i).parent, p < i) ∧
    (∀ i < o.size, ∀ j ∈ (o.node i).children.toList, j < o.size) ∧
    (∀ i < o.size, ∀ j < o.size, j ∈ (o.node i).children.toList ↔ (o.node j).parent = some i) ∧
    (∀ j ∈ o.roots.toList, j < o.size) ∧
    ∀ j < o.size, j ∈ o.roots.toList ↔ (o.node j).parent = none := by
  simp only [Array.mem_toList_iff]
  constructor
  · intro h
    refine ⟨fun i _ p hp => h.falling i p hp, fun i _ j hj => ((h.mem_children i j).1 hj).1,
      fun i _ j hj => ?_, fun j hj => ((h.mem_roots j).1 hj).1, fun j hj => ?_⟩
    · rw [h.mem_children, and_iff_right hj]
    · rw [h.mem_roots, and_iff_right hj]
  · rintro ⟨hfall, hsize, hchildren, hroot, hroots⟩
    have hfalling : Falling o.parentLink := fun i p hp => hfall i (lt_size_of_parent hp) p hp
    refine ⟨hfalling, fun i j => ?_, fun j => ?_⟩
    · rcases Nat.lt_or_ge i o.size with hi | hi
      · exact ⟨fun hj => ⟨hsize i hi j hj, (hchildren i hi j (hsize i hi j hj)).1 hj⟩,
          fun hj => (hchildren i hi j hj.1).2 hj.2⟩
      · rw [node_of_size_le hi]
        constructor
        · intro hj
          exact absurd hj (Array.not_mem_empty j)
        · rintro ⟨hj, hp⟩
          have := hfalling j i hp
          omega
    · exact ⟨fun hj => ⟨hroot j hj, (hroots j (hroot j hj)).1 hj⟩, fun hj => (hroots j hj.1).2 hj.2⟩

instance : Decidable o.LinksAgree :=
  decidable_of_iff' _ linksAgree_iff

/-- Nesting as a test of each list: of neighbours it is enough that one ends before the next
begins. -/
theorem nested_iff : o.Nested ↔
    (∀ i < o.size, (o.node i).span.start ≤ (o.node i).span.stop) ∧
    (∀ i < o.size, ∀ p ∈ (o.node i).parent,
      (o.node p).span.encloses (o.node i).span = true) ∧
    (o.roots.toList.IsChain fun a b => (o.node a).span.Before (o.node b).span) ∧
    ∀ i < o.size,
      (o.node i).children.toList.IsChain fun a b => (o.node a).span.Before (o.node b).span := by
  constructor
  · intro h
    exact ⟨h.start_le_stop, fun i _ p hp => h.inside i p hp, h.roots_apart,
      fun i _ => h.children_apart i⟩
  · rintro ⟨hforward, hinside, hroots, hchildren⟩
    refine ⟨hforward, fun i p hp => hinside i (lt_size_of_parent hp) p hp, hroots, fun i => ?_⟩
    rcases Nat.lt_or_ge i o.size with hi | hi
    · exact hchildren i hi
    · rw [node_of_size_le hi]
      exact .nil

instance : Decidable o.Nested :=
  decidable_of_iff' _ nested_iff

/-- Ids listed by their parent are apart, as soon as statements with one parent are. -/
theorem isChain_filter_parent {q : Option Nat}
    (h : ∀ a b, a < b → b < o.size → (o.node a).parent = q → (o.node b).parent = q →
      (o.node a).span.Before (o.node b).span) :
    ((List.range o.size).filter fun j => (o.node j).parent = q).IsChain
      fun a b => (o.node a).span.Before (o.node b).span := by
  apply List.Pairwise.isChain
  refine (List.pairwise_lt_range.filter _).imp_of_mem fun {a b} ha hb hab => ?_
  simp only [List.mem_filter, List.mem_range, decide_eq_true_eq] at ha hb
  exact h a b hab hb.1 ha.2 hb.2

end StatementOutline.Outline
