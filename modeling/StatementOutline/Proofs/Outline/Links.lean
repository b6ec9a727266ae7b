import StatementOutline.Outline.Basic

/-!
# Both ways of the links

The links of an outline are written twice, as the parent a statement names and as the children it
lists. `Linked` says that the two agree: the roots and every list of children are the ids that the
parents say, in increasing order, and a parent has the smaller id. Every list of statements that
name earlier parents is pushed to an outline that is `Linked` and holds these statements in order
(`Linked.pushAll`, `pushAll_getElem`).
-/

namespace StatementOutline

/-- The statement without its links: kind, span, bytes and the compound flag. -/
def Statement.bare (s : Statement) : Statement :=
  { s with parent := none, children := #[] }

theorem Statement.bare_eq_iff {s u : Statement} : s.bare = u.bare ↔
    s.kind = u.kind ∧ s.span = u.span ∧ s.bytes = u.bytes ∧ s.compound = u.compound := by
  simp [bare]

namespace Outline

variable {o : Outline} {s : Statement} {i j k p : Nat}

theorem node_of_size_le (h : o.size ≤ i) : o.node i = default := by
  simp [node, Array.getElem?_eq_none h]

/-- Induction from the leaves up; children have larger ids than their parent. -/
@[elab_as_elim]
theorem child_induction {motive : Nat → Prop} (o : Outline)
    (step : ∀ i, (∀ c ∈ o.childrenOf i, motive c) → motive i) (i : Nat) : motive i := by
  induction h : o.size - i using Nat.strongRecOn generalizing i with
  | ind n ih => exact step i fun c hc => ih _ (h ▸ ahead_lt hc) c rfl

/-! ## One push -/

theorem node_adopt (o : Outline) (p c i : Nat) : (o.adopt p c).node i =
    if p = i ∧ i < o.size then { o.node i with children := (o.node i).children.push c }
    else o.node i := by
  unfold adopt node
  rw [Array.getElem?_modify]
  by_cases hp : p = i
  · by_cases hi : i < o.size
    · have hi' : i < o.nodes.size := hi
      simp [hp, hi, hi']
    · have hi' : ¬ i < o.nodes.size := hi
      simp [hp, hi, hi']
  · simp [hp]

theorem node_pushed (o : Outline) (s : Statement) (roots : Array Nat) (i : Nat) :
    (Outline.mk (o.nodes.push s) roots).node i = if i = o.size then s else o.node i := by
  unfold node
  rw [Array.getElem?_push]
  by_cases h : i = o.nodes.size
  · simp [h, size]
  · have h' : i ≠ o.size := h
    simp [h, h']

/-- A push writes the statement behind the others and its id into the list of its parent. -/
theorem node_push (hp : ∀ p ∈ s.parent, p < o.size) (i : Nat) : (o.push s).node i =
    if i = o.size then s
    else if s.parent = some i then
      { o.node i with children := (o.node i).children.push o.size }
    else o.node i := by
  unfold push
  cases hs : s.parent with
  | none => rw [node_pushed]; simp
  | some p =>
    have hlt : p < o.size := hp p hs
    rw [node_adopt, node_pushed]
    have hgrown : (Outline.mk (o.nodes.push s) o.roots).size = o.size + 1 := Array.size_push s
    by_cases hi : i = o.size
    · simp [hi, Nat.ne_of_lt hlt]
    · by_cases hpi : p = i
      · subst hpi
        simp [hi, hgrown, Nat.lt_succ_of_lt hlt]
      · simp [hi, hpi]

theorem parent_push (hp : ∀ p ∈ s.parent, p < o.size) (i : Nat) :
    ((o.push s).node i).parent = if i = o.size then s.parent else (o.node i).parent := by
  rw [node_push hp]
  split
  · rfl
  · split <;> rfl

theorem bare_push (hp : ∀ p ∈ s.parent, p < o.size) (i : Nat) :
    ((o.push s).node i).bare = if i = o.size then s.bare else (o.node i).bare := by
  rw [node_push hp]
  split
  · rfl
  · split <;> rfl

theorem roots_push (o : Outline) (s : Statement) :
    (o.push s).roots = if s.parent = none then o.roots.push o.size else o.roots := by
  unfold push
  cases hs : s.parent with
  | none => simp
  | some p => simp [adopt]

/-! ## Links that agree -/

/-- Both ways of the links agree. -/
structure Linked (o : Outline) : Prop where
  parent_lt : ∀ {i p}, (o.node i).parent = some p → p < i
  children_eq : ∀ i, (o.node i).children.toList =
    (List.range o.size).filter fun j => (o.node j).parent = some i
  roots_eq : o.roots.toList = (List.range o.size).filter fun j => (o.node j).parent = none

namespace Linked

theorem empty : Linked {} where
  parent_lt h := by simp [node] at h; cases h
  children_eq i := by simp [node, size]; rfl
  roots_eq := by simp [size]

/-- The statements that name a parent are those of before and, if it names it, the new one behind
them. -/
theorem filter_parent_push (hp : ∀ p ∈ s.parent, p < o.size) (q : Option Nat) :
    ((List.range (o.push s).size).filter fun j => ((o.push s).node j).parent = q) =
      ((List.range o.size).filter fun j => (o.node j).parent = q) ++
        if s.parent = q then [o.size] else [] := by
  rw [size_push, List.range_succ, List.filter_append]
  congr 1
  · apply List.filter_congr
    intro j hj
    have hne : j ≠ o.size := Nat.ne_of_lt (List.mem_range.1 hj)
    rw [parent_push hp, if_neg hne]
  · by_cases h : s.parent = q
    · simp [parent_push hp, h]
    · simp [parent_push hp, h]

/-- Pushing a statement that lists no children yet and names an earlier parent keeps the links in
agreement. -/
theorem push (h : o.Linked) (hc : s.children = #[]) (hp : ∀ p ∈ s.parent, p < o.size) :
    (o.push s).Linked := by
  refine ⟨?_, ?_, ?_⟩
  · intro i p hip
    rw [parent_push hp] at hip
    split at hip
    · next hi => rw [hi]; exact hp p hip
    · exact h.parent_lt hip
  · intro i
    rw [filter_parent_push hp, node_push hp]
    split
    · next hi =>
      have hne : s.parent ≠ some i := fun e => Nat.lt_irrefl i (hi ▸ hp i e)
      have hnone := h.children_eq i
      rw [node_of_size_le (Nat.le_of_eq hi.symm)] at hnone
      rw [← hnone, if_neg hne, hc]
      rfl
    · split
      · rw [← h.children_eq, ← Array.toList_push]
      · rw [h.children_eq, List.append_nil]
  · rw [filter_parent_push hp, roots_push]
    split
    · rw [Array.toList_push, h.roots_eq]
    · rw [h.roots_eq, List.append_nil]

theorem mem_children (h : o.Linked) :
    j ∈ (o.node i).children ↔ j < o.size ∧ (o.node j).parent = some i := by
  rw [← Array.mem_toList_iff, h.children_eq]
  simp

theorem mem_roots (h : o.Linked) : j ∈ o.roots ↔ j < o.size ∧ (o.node j).parent = none := by
  rw [← Array.mem_toList_iff, h.roots_eq]
  simp

end Linked

/-! ## A list of pushes -/

/-- Push statements one after the other. -/
def pushAll (o : Outline) (l : List Statement) : Outline :=
  l.foldl push o

/-- Statements that list no children yet and each name a parent that stands before them, when the
first of them gets the id `next`. -/
def Attachable (next : Nat) (l : List Statement) : Prop :=
  ∀ k s, l[k]? = some s → s.children = #[] ∧ ∀ p ∈ s.parent, p < next + k

theorem Attachable.head {l : List Statement} (h : Attachable o.size (s :: l)) :
    s.children = #[] ∧ ∀ p ∈ s.parent, p < o.size := by
  have := h 0 s rfl
  rwa [Nat.add_zero] at this

theorem Attachable.tail {l : List Statement} (h : Attachable o.size (s :: l)) :
    Attachable (o.push s).size l := by
  intro k s' hk
  have := h (k + 1) s' hk
  rw [size_push]
  refine ⟨this.1, fun p hp => ?_⟩
  have := this.2 p hp
  omega

theorem size_pushAll (l : List Statement) : (o.pushAll l).size = o.size + l.length := by
  induction l generalizing o with
  | nil => rfl
  | cons s l ih =>
    show ((o.push s).pushAll l).size = _
    rw [ih, size_push, List.length_cons]
    omega

/-- Pushing statements one after the other keeps both ways of the links in agreement. -/
theorem Linked.pushAll (h : o.Linked) {l : List Statement} (hl : Attachable o.size l) :
    (o.pushAll l).Linked := by
  induction l generalizing o with
  | nil => exact h
  | cons s l ih => exact ih (h.push hl.head.1 hl.head.2) hl.tail

/-- Later pushes leave everything but the children of a statement alone. -/
theorem pushAll_of_lt {l : List Statement} (hl : Attachable o.size l) (hi : i < o.size) :
    ((o.pushAll l).node i).bare = (o.node i).bare ∧
      ((o.pushAll l).node i).parent = (o.node i).parent := by
  induction l generalizing o with
  | nil => exact ⟨rfl, rfl⟩
  | cons s l ih =>
    have hne : i ≠ o.size := Nat.ne_of_lt hi
    have := ih hl.tail (by rw [size_push]; omega)
    rw [bare_push hl.head.2, parent_push hl.head.2, if_neg hne, if_neg hne] at this
    exact this

/-- The `k`-th statement of the list becomes the `k`-th new one of the outline. -/
theorem pushAll_getElem {l : List Statement} (hl : Attachable o.size l) (hk : l[k]? = some s) :
    ((o.pushAll l).node (o.size + k)).bare = s.bare ∧
      ((o.pushAll l).node (o.size + k)).parent = s.parent := by
  induction l generalizing o k with
  | nil => cases hk
  | cons s' l ih =>
    cases k with
    | zero =>
      cases hk
      have := pushAll_of_lt (i := o.size) hl.tail (by rw [size_push]; omega)
      rw [bare_push hl.head.2, parent_push hl.head.2, if_pos rfl, if_pos rfl] at this
      exact this
    | succ k =>
      have := ih hl.tail (k := k) hk
      rw [size_push, Nat.add_assoc, Nat.add_comm 1 k] at this
      exact this

end Outline

end StatementOutline
