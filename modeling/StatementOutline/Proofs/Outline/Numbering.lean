import Mathlib.Data.List.Sort
import StatementOutline.Proofs.Outline.Location
import StatementOutline.Proofs.Outline.Order

/-!
# Ids in document order

Statements are numbered in the order in which a walk pushes them, and nothing in an outline records
that order but the numbers. It is the depth-first order of the outline: going down from the roots
along the lists of children, one comes to the ids `0, 1, 2, …` in turn, each once and at the depth
that its ancestors say (`preorder_eq`).

This rests on `Contiguous`, that whatever is numbered between a statement and one below it is below
it as well. The order of a tree has that property (`SyntaxTree.Precedes.mem_ancestors`), and to
stand above one another means the same in an outline as in the tree it shows
(`Shows.mem_ancestors_iff`).
-/

namespace StatementOutline

namespace Outline

variable {o : Outline} {i j m : Nat} {q : Option Nat}

/-- Whatever stands between a statement and one below it is below it. -/
def Contiguous (o : Outline) : Prop :=
  ∀ m j k, m < j → j < k → m ∈ o.ancestors k → m ∈ o.ancestors j

/-- The ids at or below statement `i`. -/
def stretch (o : Outline) (i : Nat) : List Nat :=
  (List.range o.size).filter fun j => Under o.parentLink i j

/-- The ids of the statements with parent `q`; the roots for none. -/
def level (o : Outline) (q : Option Nat) : List Nat :=
  (List.range o.size).filter fun j => (o.node j).parent = q

/-- Id `i` as it comes up in a listing, with its depth. -/
def placed (o : Outline) (i : Nat) : Nat × Nat :=
  ((o.ancestors i).length, i)

theorem mem_level : j ∈ o.level q ↔ j < o.size ∧ (o.node j).parent = q := by
  simp [level]

theorem pairwise_level (o : Outline) (q : Option Nat) : (o.level q).Pairwise (· < ·) :=
  List.pairwise_lt_range.filter _

theorem pairwise_stretch (o : Outline) (i : Nat) : (o.stretch i).Pairwise (· < ·) :=
  List.pairwise_lt_range.filter _

theorem ancestors_of_none (h : (o.node i).parent = none) : o.ancestors i = [] := by
  rw [ancestors_eq_climb]
  exact climb_of_none h

theorem ancestors_of_some (hl : o.Linked) (h : (o.node i).parent = some m) :
    o.ancestors i = m :: o.ancestors m := by
  rw [ancestors_eq_climb, ancestors_eq_climb]
  exact climb_of_some hl.linksAgree.falling h

theorem lt_size_of_mem_ancestors (h : i ∈ o.ancestors j) : j < o.size := by
  cases hj : (o.node j).parent with
  | none =>
    rw [ancestors_of_none hj] at h
    cases h
  | some p => exact lt_size_of_parent hj

theorem mem_stretch (hi : i < o.size) : j ∈ o.stretch i ↔ Under o.parentLink i j := by
  simp only [stretch, List.mem_filter, List.mem_range, decide_eq_true_eq]
  constructor
  · exact And.right
  · intro h
    refine ⟨?_, h⟩
    rcases h with rfl | h
    · exact hi
    · rw [← ancestors_eq_climb] at h
      exact lt_size_of_mem_ancestors h

section Contiguous

variable (hl : o.Linked) (hc : o.Contiguous)

include hl hc

/-- Ids rise through the stretches of one level: where a stretch is left, the next sibling has not
begun. -/
theorem pairwise_flatMap_stretch (q : Option Nat) :
    ((o.level q).flatMap o.stretch).Pairwise (· < ·) := by
  have hfall := hl.linksAgree.falling
  rw [List.pairwise_flatMap]
  refine ⟨fun i _ => o.pairwise_stretch i, (o.pairwise_level q).imp_of_mem ?_⟩
  intro c d hcq hdq hcd a ha b hb
  obtain ⟨hcs, hcp⟩ := mem_level.1 hcq
  obtain ⟨hds, hdp⟩ := mem_level.1 hdq
  rw [mem_stretch hcs] at ha
  rw [mem_stretch hds] at hb
  have hapart : ∀ j, Under o.parentLink c j → ¬ Under o.parentLink d j := fun j hcj hdj =>
    Nat.ne_of_lt hcd (sibling_unique hfall (hcp.trans hdp.symm) hcj hdj)
  have hdb := hb.le hfall
  by_contra hab
  rcases ha with rfl | ha
  · omega
  · by_cases hba : b = a
    · exact hapart b (.inr (hba ▸ ha)) hb
    · have hcb := hc c b a (by omega) (by omega) (ancestors_eq_climb o a ▸ ha)
      rw [ancestors_eq_climb] at hcb
      exact hapart b (.inr hcb) hb

/-- A stretch is its statement and then the stretches of the children, without a gap. -/
theorem stretch_eq (hi : i < o.size) :
    o.stretch i = i :: (o.level (some i)).flatMap o.stretch := by
  have hfall := hl.linksAgree.falling
  have hmem : ∀ j, j ∈ (o.level (some i)).flatMap o.stretch ↔ i ∈ climb o.parentLink j := by
    intro j
    rw [mem_climb_iff_under hfall, List.mem_flatMap]
    apply exists_congr
    intro c
    rw [mem_level]
    constructor
    · rintro ⟨⟨hcs, hcp⟩, hj⟩
      exact ⟨hcp, (mem_stretch hcs).1 hj⟩
    · rintro ⟨hcp, hj⟩
      have hcs := lt_size_of_parent hcp
      exact ⟨⟨hcs, hcp⟩, (mem_stretch hcs).2 hj⟩
  apply (o.pairwise_stretch i).eq_of_mem_iff
  · refine List.pairwise_cons.2 ⟨fun j hj => ?_, pairwise_flatMap_stretch hl hc (some i)⟩
    exact lt_of_mem_climb hfall ((hmem j).1 hj)
  · intro j
    rw [mem_stretch hi, List.mem_cons, hmem]
    rfl

/-- All ids, in order, are the stretches of the roots one after the other. -/
theorem range_eq : List.range o.size = (o.level none).flatMap o.stretch := by
  have hfall := hl.linksAgree.falling
  apply List.pairwise_lt_range.eq_of_mem_iff (pairwise_flatMap_stretch hl hc none)
  intro j
  rw [List.mem_range, List.mem_flatMap]
  constructor
  · intro hj
    obtain ⟨c, hcp, hcj⟩ := exists_top hfall j
    have hcs : c < o.size := Nat.lt_of_le_of_lt (hcj.le hfall) hj
    exact ⟨c, mem_level.2 ⟨hcs, hcp⟩, (mem_stretch hcs).2 hcj⟩
  · rintro ⟨c, -, hj⟩
    exact List.mem_range.1 (List.mem_filter.1 hj).1

/-- Depth first from a statement, ids come up as they are numbered, each with its depth. -/
theorem preorderFrom_eq_map (i : Nat) : i < o.size →
    o.preorderFrom (o.ancestors i).length i = (o.stretch i).map o.placed := by
  induction i using child_induction o with
  | step i ih =>
    intro hi
    have hchildren : (o.childrenOf i).toList = o.level (some i) := by
      rw [hl.linksAgree.childrenOf_eq]
      exact hl.children_eq i
    rw [preorderFrom_eq, stretch_eq hl hc hi, List.map_cons, List.map_flatMap, hchildren]
    congr 1
    apply List.flatMap_congr
    intro c hci
    obtain ⟨hcs, hcp⟩ := mem_level.1 hci
    have hdepth : (o.ancestors c).length = (o.ancestors i).length + 1 := by
      rw [ancestors_of_some hl hcp, List.length_cons]
    rw [← hdepth]
    exact ih c (Array.mem_def.2 (hchildren ▸ hci)) hcs

theorem preorder_eq : o.preorder = (List.range o.size).map o.placed := by
  have hroots : o.roots.toList = o.level none := hl.roots_eq
  rw [preorder, hroots, range_eq hl hc, List.map_flatMap]
  apply List.flatMap_congr
  intro c hcq
  obtain ⟨hcs, hcp⟩ := mem_level.1 hcq
  rw [← preorderFrom_eq_map hl hc c hcs, ancestors_of_none hcp, List.length_nil]

end Contiguous

end Outline

/-! ## Outlines of trees -/

namespace Reduction

variable {r : Reduction} {o : Outline} {k m x y : Nat}

/-- A statement is above another in the outline if its node is above that of the other in the
tree. -/
theorem Shows.mem_ancestors_iff (hs : r.Shows r.selection o) (hl : o.Linked)
    (hm : r.selection[m]? = some y) (hk : r.selection[k]? = some x) :
    m ∈ o.ancestors k ↔ y ∈ r.tree.ancestors x := by
  have hfall := hl.linksAgree.falling
  rw [Outline.ancestors_eq_climb, mem_climb hfall]
  induction k using Nat.strongRecOn generalizing x with
  | ind k ih =>
    have hholder := hs.holder?_eq hk
    constructor
    · rintro ⟨p, hp, hmp⟩
      obtain ⟨z, hz, -⟩ := hs.exists_node
        (Nat.lt_trans (hl.parent_lt hp) (Outline.lt_size_of_parent hp))
      have hzx : z ∈ r.tree.ancestors x := by
        rw [show (o.node k).parent = some p from hp, Option.bind_some, hz] at hholder
        exact List.mem_of_find?_eq_some hholder
      rcases hmp with rfl | hmp
      · rw [hm] at hz
        cases hz
        exact hzx
      · have hyz := (ih p (hl.parent_lt hp) hz).1 ((mem_climb hfall).1 hmp)
        exact climb_trans r.tree.falling hyz hzx
    · intro hyx
      have hstatement := (mem_selection.1 (List.mem_of_getElem? hm)).2.2
      obtain ⟨z, hz, hyz⟩ := under_holder? hyx hstatement
      obtain ⟨p, hpz, hp⟩ := hs.parent_some hk hz
      refine ⟨p, hp, ?_⟩
      rcases hyz with rfl | hyz
      · left
        have hlt := (List.getElem?_eq_some_iff.1 hm).1
        exact (List.getElem?_inj hlt r.nodup_selection).1 (hm.trans hpz.symm)
      · right
        exact (mem_climb hfall).2 ((ih p (hl.parent_lt hp) hpz).2 hyz)

/-- The numbering of an outline follows the preorder of the tree. -/
theorem Shows.contiguous (hs : r.Shows r.selection o) (hl : o.Linked) : o.Contiguous := by
  intro m j k hmj hjk hmk
  have hk : k < o.size := Outline.lt_size_of_mem_ancestors hmk
  obtain ⟨x, hx, -⟩ := hs.exists_node hk
  obtain ⟨y, hy, -⟩ := hs.exists_node (Nat.lt_trans hjk hk)
  obtain ⟨z, hz, -⟩ := hs.exists_node (Nat.lt_trans hmj (Nat.lt_trans hjk hk))
  rw [hs.mem_ancestors_iff hl hz hx] at hmk
  rw [hs.mem_ancestors_iff hl hz hy]
  exact (precedes_of_lt hz hy hmj).mem_ancestors (precedes_of_lt hy hx hjk) hmk

/-- **Ids follow document order.** A walk that nothing stops, over whatever tree and range, comes to
an outline all of whose links lead to statements of its own. The lists of roots and children and the
parents say the same, the lists are increasing, and parents have the smaller ids. Going down from
the roots along the lists of children, one comes to the ids from zero up in turn. -/
theorem outline_in_preorder (hn : r.signal = .never) :
    ∃ o, r.outline = .ok o ∧
      ((∀ i ∈ o.roots, i < o.size) ∧ (∀ i, ∀ c ∈ (o.node i).children, c < o.size) ∧
        ∀ i, ∀ p ∈ (o.node i).parent, p < o.size) ∧
      (∀ i p, i ∈ (o.node p).children ↔ (o.node i).parent = some p) ∧
      (∀ i < o.size, i ∈ o.roots ↔ (o.node i).parent = none) ∧
      (o.roots.toList.Pairwise (· < ·) ∧ ∀ i, (o.node i).children.toList.Pairwise (· < ·)) ∧
      (∀ i, ∀ p ∈ (o.node i).parent, p < i) ∧
      (∀ depth i, o.preorderFrom depth i =
        (depth, i) :: (o.node i).children.toList.flatMap (o.preorderFrom (depth + 1))) ∧
      (o.roots.toList.flatMap (o.preorderFrom 0)).map (·.2) = List.range o.size := by
  obtain ⟨o, ho, hs, hl⟩ := exists_outline hn
  refine ⟨o, ho, ⟨fun i hi => (hl.mem_roots.1 hi).1, fun i c hc => (hl.mem_children.1 hc).1, ?_⟩,
    ?_, ?_, ⟨?_, ?_⟩, fun i p hp => hl.parent_lt hp, ?_, ?_⟩
  · intro i p hp
    exact Nat.lt_trans (hl.parent_lt hp) (Outline.lt_size_of_parent hp)
  · intro i p
    rw [hl.mem_children]
    exact and_iff_right_of_imp Outline.lt_size_of_parent
  · intro i hi
    rw [hl.mem_roots, and_iff_right hi]
  · rw [hl.roots_eq]
    exact o.pairwise_level none
  · intro i
    rw [hl.children_eq]
    exact o.pairwise_level (some i)
  · intro depth i
    rw [Outline.preorderFrom_eq, hl.linksAgree.childrenOf_eq]
  · show o.preorder.map (·.2) = _
    rw [Outline.preorder_eq hl (hs.contiguous hl), List.map_map]
    exact List.map_id _

theorem outline_in_preorder_overhanging : overhanging.signal = .never ∧
    ¬ overhanging.tree.ChildrenInside ∧ ∃ o, overhanging.outline = .ok o ∧
      o.roots = #[0] ∧ (o.node 0).children = #[1, 2] ∧
      (o.roots.toList.flatMap (o.preorderFrom 0)).map (·.2) = [0, 1, 2] := by
  have houtline : overhanging.outline = .ok
      ⟨#[⟨"block", ⟨0, 12⟩, ⟨0, 12⟩, true, none, #[1, 2]⟩,
        ⟨"call", ⟨2, 30⟩, ⟨2, 30⟩, false, some 0, #[]⟩,
        ⟨"call", ⟨9, 11⟩, ⟨9, 11⟩, false, some 0, #[]⟩], #[0]⟩ := by
    decide +kernel
  have hoverhang : ¬ overhanging.tree.ChildrenInside := fun h =>
    absurd (h 3 2 (by decide)) (by decide)
  obtain ⟨o, ho, -, -, -, -, -, -, hpreorder⟩ := outline_in_preorder (r := overhanging) rfl
  rw [houtline] at ho
  cases ho
  exact ⟨rfl, hoverhang, _, houtline, rfl, rfl, hpreorder⟩

end Reduction

end StatementOutline
