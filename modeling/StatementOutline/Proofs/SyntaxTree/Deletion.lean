import Mathlib.Data.List.Nodup
import StatementOutline.Proofs.SyntaxTree.Ancestry

/-!
# Deleting nodes

`without` takes nodes out of a tree and closes the gaps in the numbering. A kept node gets its
`rank` among the kept ones as its new id, and is what it was but for the number of its parent
(`node_without`). If what is taken out has no children, the kept nodes keep their parents, and each
has its kept children, in order (`children_without`).
-/

namespace StatementOutline.SyntaxTree

variable {t : SyntaxTree} {gone : Nat → Bool} {i j m p : Nat}

/-- The ids of the nodes to keep, in order. -/
def keptIds (t : SyntaxTree) (gone : Nat → Bool) : List Nat :=
  (List.range t.size).filter fun i => !gone i

/-- The number of a kept node among those kept. -/
def rank (t : SyntaxTree) (gone : Nat → Bool) (i : Nat) : Nat :=
  (t.keptIds gone).idxOf i

/-- Node `i` with its parent renumbered, if that is kept. -/
def renumbered (t : SyntaxTree) (gone : Nat → Bool) (i : Nat) : SyntaxNode :=
  { t.node i with parent := ((t.node i).parent.filter fun p => !gone p).map (t.rank gone) }

theorem mem_keptIds : i ∈ t.keptIds gone ↔ i < t.size ∧ gone i = false := by
  simp [keptIds]

theorem rank_of_getElem? (h : (t.keptIds gone)[m]? = some i) : t.rank gone i = m := by
  obtain ⟨hm, rfl⟩ := List.getElem?_eq_some_iff.1 h
  exact (List.nodup_range.filter _).idxOf_getElem m hm

theorem getElem?_rank (h : i ∈ t.keptIds gone) : (t.keptIds gone)[t.rank gone i]? = some i :=
  List.getElem?_idxOf h

/-- The kept nodes keep their order. -/
theorem rank_lt_rank (hi : i ∈ t.keptIds gone) (hj : j ∈ t.keptIds gone) (hij : i < j) :
    t.rank gone i < t.rank gone j := by
  have hsorted : (t.keptIds gone).Pairwise (· < ·) := List.pairwise_lt_range.filter _
  obtain ⟨hmi, hi⟩ := List.getElem?_eq_some_iff.1 (getElem?_rank hi)
  obtain ⟨hmj, hj⟩ := List.getElem?_eq_some_iff.1 (getElem?_rank hj)
  by_contra hle
  rcases Nat.eq_or_lt_of_le (Nat.le_of_not_lt hle) with heq | hlt
  · simp only [heq] at hj
    omega
  · have := List.pairwise_iff_getElem.1 hsorted _ _ hmj hmi hlt
    omega

theorem rank_inj (hi : i ∈ t.keptIds gone) (hj : j ∈ t.keptIds gone) :
    t.rank gone i = t.rank gone j ↔ i = j := by
  constructor
  · intro h
    have hget := getElem?_rank hi
    rw [h, getElem?_rank hj] at hget
    exact (Option.some.inj hget).symm
  · rintro rfl
    rfl

theorem parent?_eq_parent (t : SyntaxTree) (i : Nat) : t.parent? i = (t.node i).parent := by
  unfold parent? parentIn node
  cases t.nodes[i]? with
  | none => rfl
  | some node => rfl

/-- The tree without the nodes that are gone, the others renumbered in order. -/
def without (t : SyntaxTree) (gone : Nat → Bool) : SyntaxTree :=
  ofNodes ((t.keptIds gone).map (t.renumbered gone)).toArray fun m hm q hq => by
    have hm' : m < (t.keptIds gone).length := by simpa using hm
    have hget := List.getElem?_eq_getElem hm'
    have hq' : q ∈ (t.renumbered gone (t.keptIds gone)[m]).parent := by simpa using hq
    generalize (t.keptIds gone)[m] = j at hget hq'
    obtain ⟨p, hp, rfl⟩ := Option.map_eq_some_iff.1 hq'
    obtain ⟨hparent, hkept⟩ := Option.filter_eq_some_iff.1 hp
    rw [← parent?_eq_parent] at hparent
    obtain ⟨hlt, hsize⟩ := parent_lt hparent
    rw [← rank_of_getElem? hget]
    exact rank_lt_rank (mem_keptIds.2 ⟨by omega, by simpa using hkept⟩)
      (List.mem_of_getElem? hget) hlt

@[simp] theorem size_without (t : SyntaxTree) (gone : Nat → Bool) :
    (t.without gone).size = (t.keptIds gone).length := by
  simp [without, size, ofNodes]

theorem node_without (hi : i ∈ t.keptIds gone) :
    (t.without gone).node (t.rank gone i) = t.renumbered gone i := by
  simp [without, node, ofNodes, getElem?_rank hi]

theorem exists_rank (hm : m < (t.without gone).size) :
    ∃ i ∈ t.keptIds gone, t.rank gone i = m := by
  rw [size_without] at hm
  exact ⟨_, List.getElem_mem hm, rank_of_getElem? (List.getElem?_eq_getElem hm)⟩

theorem root?_without (h : 0 < t.size → gone 0 = false) : (t.without gone).root? = t.root? := by
  rw [root?_eq, root?_eq, size_without]
  by_cases ht : t.size = 0
  · simp [ht, keptIds]
  · have hpos := Nat.pos_of_ne_zero ht
    have hmem : 0 ∈ t.keptIds gone := mem_keptIds.2 ⟨hpos, h hpos⟩
    simp [ht, List.ne_nil_of_mem hmem]

theorem rank_zero (h : 0 ∈ t.keptIds gone) : t.rank gone 0 = 0 := by
  obtain ⟨hsize, hgone⟩ := mem_keptIds.1 h
  obtain ⟨n, hn⟩ := Nat.exists_eq_succ_of_ne_zero (Nat.ne_of_gt hsize)
  simp [rank, keptIds, hn, List.range_succ_eq_map, hgone]

/-! ## Without leaves -/

section Leaves

variable (hleaf : ∀ i < t.size, gone i = true → t.children i = [])

include hleaf

/-- A node with a child is kept, as only nodes without children are taken out. -/
theorem parent_mem_keptIds (hp : t.parent? j = some p) : p ∈ t.keptIds gone := by
  obtain ⟨hlt, hsize⟩ := parent_lt hp
  refine mem_keptIds.2 ⟨by omega, ?_⟩
  by_contra hgone
  have hnil := hleaf p (by omega) (by simpa using hgone)
  have hmem := mem_children.2 hp
  rw [hnil] at hmem
  cases hmem

/-- A kept node has the same parent as before, by its new number. -/
theorem parent_without (hj : j ∈ t.keptIds gone) :
    ((t.without gone).node (t.rank gone j)).parent = (t.node j).parent.map (t.rank gone) := by
  rw [node_without hj, renumbered]
  cases hp : (t.node j).parent with
  | none => rfl
  | some p =>
    have hkept := (mem_keptIds.1 (parent_mem_keptIds hleaf (t.parent?_eq_parent j ▸ hp))).2
    simp [Option.filter, hkept]

/-- A kept node has those of its children that are kept, in the same order. -/
theorem children_without (hi : i ∈ t.keptIds gone) :
    (t.without gone).children (t.rank gone i) =
      ((t.children i).filter fun c => !gone c).map (t.rank gone) := by
  have hkept : ∀ c, c ∈ (t.children i).filter (fun c => !gone c) ↔
      c ∈ t.keptIds gone ∧ t.parent? c = some i := by
    intro c
    rw [List.mem_filter, mem_keptIds, mem_children]
    constructor
    · rintro ⟨hc, hgone⟩
      exact ⟨⟨(parent_lt hc).2, by simpa using hgone⟩, hc⟩
    · rintro ⟨⟨-, hgone⟩, hc⟩
      exact ⟨hc, by simpa using hgone⟩
  have hlink : ∀ c ∈ t.keptIds gone, (t.without gone).parent? (t.rank gone c) =
      some (t.rank gone i) ↔ t.parent? c = some i := by
    intro c hc
    rw [parent?_eq_parent, parent_without hleaf hc, ← parent?_eq_parent, Option.map_eq_some_iff]
    constructor
    · rintro ⟨p, hp, hrank⟩
      rwa [(rank_inj (parent_mem_keptIds hleaf hp) hi).1 hrank] at hp
    · intro hp
      exact ⟨i, hp, rfl⟩
  have hsorted : (((t.children i).filter fun c => !gone c).map (t.rank gone)).Pairwise (· < ·) := by
    rw [List.pairwise_map]
    refine ((t.pairwise_children i).filter _).imp_of_mem fun {a b} ha hb hab => ?_
    exact rank_lt_rank ((hkept a).1 ha).1 ((hkept b).1 hb).1 hab
  -- Two increasing lists with the same members.
  refine List.Perm.eq_of_pairwise (fun a b _ _ hab hba => absurd hab (Nat.lt_asymm hba))
    (pairwise_children _ _) hsorted ?_
  refine (List.perm_ext_iff_of_nodup (List.Pairwise.imp Nat.ne_of_lt (pairwise_children _ _))
    (hsorted.imp Nat.ne_of_lt)).2 fun m => ?_
  rw [mem_children, List.mem_map]
  constructor
  · intro hm
    obtain ⟨c, hc, rfl⟩ := exists_rank (parent_lt hm).2
    exact ⟨c, (hkept c).2 ⟨hc, (hlink c hc).1 hm⟩, rfl⟩
  · rintro ⟨c, hc, rfl⟩
    obtain ⟨hc, hp⟩ := (hkept c).1 hc
    exact (hlink c hc).2 hp

/-- A search among the children finds the same, if it passes over what is gone. -/
theorem any_children_without {q q' : Nat → Bool} (hi : i ∈ t.keptIds gone)
    (hkept : ∀ c ∈ t.children i, c ∈ t.keptIds gone → q' (t.rank gone c) = q c)
    (hgone : ∀ c ∈ t.children i, gone c = true → q c = false) :
    ((t.without gone).children (t.rank gone i)).any q' = (t.children i).any q := by
  rw [children_without hleaf hi, List.any_map, List.any_filter, Bool.eq_iff_iff, List.any_eq_true,
    List.any_eq_true]
  apply exists_congr
  intro c
  apply and_congr_right
  intro hc
  cases hgc : gone c with
  | true => simp [hgone c hc hgc]
  | false =>
    rw [← hkept c hc (mem_keptIds.2 ⟨lt_size_of_mem_children hc, hgc⟩)]
    simp

end Leaves

end StatementOutline.SyntaxTree
