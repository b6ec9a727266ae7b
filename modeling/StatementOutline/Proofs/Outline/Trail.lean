import StatementOutline.Outline.Reduction
import StatementOutline.Proofs.SyntaxTree.Ancestry

/-!
# The trail of a walk

A walk is written as a recursion over the tree, with the id of the statement above handed down.
Seen from outside it is one pass over a list. The `trail` of a reduction holds the nodes that a walk
comes to if nothing stops it: those in the preorder of the tree all of whose strict ancestors are in
scope and let the walk through. `enter` is what the walk does at one node, with the owner of the
node looked up and not handed down. `walk_eq_foldl_enter`: under every signal to stop, the walk
enters the nodes of the trail one after the other.

The owner is looked up among the nodes that become statements (`selection`). That it is the one the
recursion hands down rests on the ids being given out in the order of the trail (`InStep`).
-/

namespace StatementOutline.Reduction

variable {r : Reduction} {w : Walk} {a c i j : Nat}

/-! ## Which nodes a walk comes to -/

/-- Node `i` is a statement, if the walk comes to it and it is in scope. -/
def isStatement (r : Reduction) (i : Nat) : Bool :=
  match r.table.verdict r.tree i with
  | .statement _ _ => true
  | .skip | .sealed => false

/-- Node `i` is looked through, or a statement to descend into. -/
def isOpen (r : Reduction) (i : Nat) : Bool :=
  match r.table.verdict r.tree i with
  | .skip => true
  | .sealed => false
  | .statement _ descend => descend

/-- A walk comes to node `i`: it hangs below the root, and everything above it is in scope and
open. -/
def Reached (r : Reduction) (i : Nat) : Prop :=
  r.tree.Rooted i ∧ ∀ a ∈ r.tree.ancestors i, r.inScope a = true ∧ r.isOpen a = true

instance : DecidablePred r.Reached :=
  fun i => inferInstanceAs (Decidable (r.tree.Rooted i ∧
    ∀ a ∈ r.tree.ancestors i, r.inScope a = true ∧ r.isOpen a = true))

/-- Node `i` becomes a statement of the outline: a walk comes to it, and it is a statement in
scope. -/
def Selected (r : Reduction) (i : Nat) : Prop :=
  r.Reached i ∧ r.inScope i = true ∧ r.isStatement i = true

instance : DecidablePred r.Selected :=
  fun i => inferInstanceAs (Decidable (r.Reached i ∧ r.inScope i = true ∧ r.isStatement i = true))

/-- The nodes a walk comes to, in the order in which it does. -/
def trail (r : Reduction) : List Nat :=
  r.tree.preorder.filter fun i => r.Reached i

/-- The nodes that become statements, in the order of the trail. -/
def selection (r : Reduction) : List Nat :=
  r.tree.preorder.filter fun i => r.Selected i

/-- Every selected node is in the selection, since the preorder has all nodes below the root. -/
theorem mem_selection : i ∈ r.selection ↔ r.Selected i := by
  simp only [selection, List.mem_filter, SyntaxTree.mem_preorder, decide_eq_true_eq]
  exact ⟨And.right, fun h => ⟨h.1.1, h⟩⟩

theorem nodup_trail (r : Reduction) : r.trail.Nodup :=
  (r.tree.pairwise_preorder.filter _).imp SyntaxTree.Precedes.ne

theorem pairwise_selection (r : Reduction) : r.selection.Pairwise r.tree.Precedes :=
  r.tree.pairwise_preorder.filter _

theorem precedes_of_lt {m k x y : Nat} (hm : r.selection[m]? = some x)
    (hk : r.selection[k]? = some y) (h : m < k) : r.tree.Precedes x y := by
  obtain ⟨hml, rfl⟩ := List.getElem?_eq_some_iff.1 hm
  obtain ⟨hkl, rfl⟩ := List.getElem?_eq_some_iff.1 hk
  exact List.pairwise_iff_getElem.1 r.pairwise_selection m k hml hkl h

theorem nodup_selection (r : Reduction) : r.selection.Nodup :=
  r.pairwise_selection.imp SyntaxTree.Precedes.ne

/-- Node `i` is pushed when the walk enters it. -/
def isKept (r : Reduction) (i : Nat) : Bool :=
  r.inScope i && r.isStatement i

theorem selection_eq_filter_trail (r : Reduction) : r.selection = r.trail.filter r.isKept := by
  rw [selection, trail, List.filter_filter]
  apply List.filter_congr
  intro i _
  rw [Bool.eq_iff_iff, Bool.and_eq_true, decide_eq_true_iff, decide_eq_true_iff, isKept,
    Bool.and_eq_true]
  exact And.comm

/-- A walk comes to a child when it comes to the parent and goes on from there. -/
theorem reached_child (hc : c ∈ r.tree.children i) :
    r.Reached c ↔ r.Reached i ∧ r.inScope i = true ∧ r.isOpen i = true := by
  have hsize := SyntaxTree.lt_size_of_mem_children hc
  have hlt := SyntaxTree.lt_of_mem_children hc
  unfold Reached SyntaxTree.Rooted
  rw [SyntaxTree.ancestors_of_mem_children hc]
  simp only [List.mem_cons, forall_eq_or_imp]
  constructor
  · rintro ⟨⟨-, hroot⟩, hi, habove⟩
    refine ⟨⟨⟨by omega, ?_⟩, habove⟩, hi⟩
    rcases hroot with rfl | rfl | hroot
    · omega
    · exact .inl rfl
    · exact .inr hroot
  · rintro ⟨⟨⟨-, hroot⟩, habove⟩, hi⟩
    exact ⟨⟨hsize, .inr (hroot.imp_left Eq.symm)⟩, hi, habove⟩

/-- The part of the trail at or below node `i`. -/
def trailFrom (r : Reduction) (i : Nat) : List Nat :=
  (i :: r.tree.descendants i).filter fun j => r.Reached j

/-- Nothing below a node out of scope, or closed, is on the trail. -/
theorem trailFrom_of_closed (h : r.Reached i) (hi : r.inScope i = true → r.isOpen i = false) :
    r.trailFrom i = [i] := by
  have below : (r.tree.descendants i).filter (fun j => r.Reached j) = [] := by
    refine List.filter_eq_nil_iff.2 fun j hj hreached => ?_
    have habove := (of_decide_eq_true hreached).2 i (SyntaxTree.mem_descendants.1 hj)
    rw [hi habove.1] at habove
    exact Bool.false_ne_true habove.2
  rw [trailFrom, List.filter_cons_of_pos (by simpa using h), below]

/-- The trail through a node is the node and the trails through its children. -/
theorem trailFrom_of_open (h : r.Reached i) :
    r.trailFrom i = i :: (r.tree.children i).flatMap r.trailFrom := by
  rw [trailFrom, List.filter_cons_of_pos (by simpa using h), SyntaxTree.descendants_eq,
    List.filter_flatMap]
  rfl

/-! ## Owners -/

/-- The nearest strict ancestor of node `i` that is a statement. -/
def holder? (r : Reduction) (i : Nat) : Option Nat :=
  (r.tree.ancestors i).find? r.isStatement

/-- The id, in the outline, of the statement that node `i` belongs to. -/
def ownerId (r : Reduction) (i : Nat) : Option Nat :=
  (r.holder? i).map fun a => r.selection.idxOf a

/-- The nearest statement above a child is the parent, or else the nearest above the parent. -/
theorem holder?_child (hc : c ∈ r.tree.children i) :
    r.holder? c = if r.isStatement i then some i else r.holder? i := by
  unfold holder?
  rw [SyntaxTree.ancestors_of_mem_children hc, List.find?_cons]
  cases r.isStatement i <;> rfl

/-- The owner of a node that a walk comes to is in the outline. -/
theorem selected_of_holder? (h : r.Reached i) (ha : r.holder? i = some a) : r.Selected a := by
  have hmem := List.mem_of_find?_eq_some ha
  have hlt := SyntaxTree.lt_of_mem_ancestors hmem
  refine ⟨⟨⟨Nat.lt_trans hlt h.1.1, ?_⟩, fun b hb => ?_⟩, (h.2 a hmem).1, List.find?_some ha⟩
  · rcases h.1.2 with rfl | hroot
    · exact absurd hlt (Nat.not_lt_zero a)
    · rcases climb_total r.tree.falling hmem hroot with h0 | h0 | h0
      · exact .inl h0
      · exact absurd (SyntaxTree.lt_of_mem_ancestors h0) (Nat.not_lt_zero a)
      · exact .inr h0
  · exact h.2 b (climb_trans r.tree.falling hb hmem)

/-! ## One node at a time -/

/-- What a walk does at node `i` itself. -/
def enter (r : Reduction) (w : Walk) (i : Nat) : Walk :=
  if w.stopped then w
  else if r.seesSignal w.count then w.count.stop
  else if !r.inScope i then w.count
  else
    let noted := w.count.note (r.table.classify r.tree i).note
    match r.table.verdict r.tree i with
    | .skip | .sealed => noted
    | .statement compound _ => noted.push (r.tree.node i) compound (r.ownerId i)

theorem enter_of_stopped (h : w.stopped = true) : r.enter w i = w := by
  simp [enter, h]

@[simp] theorem outline_note (w : Walk) (note : Option CollapseNote) :
    (w.note note).outline = w.outline := by
  cases note <;> rfl

@[simp] theorem stopped_note (w : Walk) (note : Option CollapseNote) :
    (w.note note).stopped = w.stopped := by
  cases note <;> rfl

/-- Entering a node stops the walk, or adds one statement if the node is kept and none if not. -/
theorem size_enter (h : (r.enter w i).stopped = false) :
    (r.enter w i).outline.size = w.outline.size + if r.isKept i then 1 else 0 := by
  unfold enter at h ⊢
  unfold isKept isStatement
  split
  · next hw => rw [if_pos hw, hw] at h; cases h
  · next hw =>
    rw [if_neg hw] at h
    split
    · next hs => rw [if_pos hs] at h; cases h
    · split
      · next hscope => simp_all [Walk.count]
      · next hscope =>
        cases hv : r.table.verdict r.tree i <;> simp_all [Walk.count, Walk.push]

/-- After the nodes `entered` of the trail, unless it was stopped, the walk has pushed those among
them that are kept. -/
def InStep (r : Reduction) (entered : List Nat) (w : Walk) : Prop :=
  w.stopped = false → w.outline.size = (entered.filter r.isKept).length

/-- Entering one more node keeps step: the outline grows if the node is kept. -/
theorem InStep.enter {entered : List Nat} (h : r.InStep entered w) (i : Nat) :
    r.InStep (entered ++ [i]) (r.enter w i) := by
  intro hs
  have hw : w.stopped = false := by
    cases hw : w.stopped with
    | false => rfl
    | true => rw [enter_of_stopped hw, hw] at hs; exact hs
  rw [size_enter hs, h hw, List.filter_append, List.length_append]
  cases hk : r.isKept i <;> simp [hk]

theorem InStep.foldl {entered : List Nat} (h : r.InStep entered w) (l : List Nat) :
    r.InStep (entered ++ l) (l.foldl r.enter w) := by
  induction l generalizing entered w with
  | nil => rwa [List.append_nil]
  | cons i l ih =>
    have := ih (h.enter i)
    rwa [List.append_assoc] at this

/-- The next kept node of the trail gets the number of statements so far as its id. -/
theorem idxOf_selection {entered rest : List Nat} (htrail : r.trail = entered ++ i :: rest)
    (hk : r.isKept i = true) : r.selection.idxOf i = (entered.filter r.isKept).length := by
  have hnodup := r.nodup_trail
  rw [htrail] at hnodup
  have hnot : i ∉ entered.filter r.isKept := fun h =>
    (List.nodup_append.1 hnodup).2.2 i (List.mem_filter.1 h).1 i List.mem_cons_self rfl
  rw [selection_eq_filter_trail, htrail, List.filter_append, List.filter_cons_of_pos hk,
    List.idxOf_append, if_neg hnot, List.idxOf_cons_self, Nat.zero_add]

/-! ## The walk along the trail -/

/-- Visiting node `i` under its owner enters the part of the trail at or below `i`, node by node. -/
def FollowsTrail (r : Reduction) (i : Nat) : Prop :=
  ∀ (entered rest : List Nat) (w : Walk), r.Reached i →
    r.trail = entered ++ r.trailFrom i ++ rest → r.InStep entered w →
      r.visit (r.ownerId i) w i = (r.trailFrom i).foldl r.enter w

/-- If the visits of some children follow the trail, so does the fold over them. What was entered
grows from child to child, and the step is kept. -/
theorem foldl_visit_eq {cs : List Nat} {owner : Option Nat} (hcs : ∀ c ∈ cs, r.FollowsTrail c)
    (hreached : ∀ c ∈ cs, r.Reached c) (howner : ∀ c ∈ cs, r.ownerId c = owner) :
    ∀ (entered rest : List Nat) (w : Walk),
      r.trail = entered ++ cs.flatMap r.trailFrom ++ rest → r.InStep entered w →
        cs.foldl (r.visit owner) w = (cs.flatMap r.trailFrom).foldl r.enter w := by
  induction cs with
  | nil => intro _ _ _ _ _; rfl
  | cons c cs ih =>
    intro entered rest w htrail hw
    have htrail' : r.trail = entered ++ r.trailFrom c ++ (cs.flatMap r.trailFrom ++ rest) := by
      rw [htrail, List.flatMap_cons]
      simp only [List.append_assoc]
    have hc := hcs c List.mem_cons_self entered _ w (hreached c List.mem_cons_self) htrail' hw
    rw [howner c List.mem_cons_self] at hc
    rw [List.foldl_cons, List.flatMap_cons, List.foldl_append, hc]
    refine ih (fun d hd => hcs d (List.mem_cons_of_mem c hd))
      (fun d hd => hreached d (List.mem_cons_of_mem c hd))
      (fun d hd => howner d (List.mem_cons_of_mem c hd)) (entered ++ r.trailFrom c) rest _ ?_
      (hw.foldl _)
    rw [htrail', List.append_assoc (entered ++ r.trailFrom c)]

theorem visit_of_stopped (h : w.stopped = true) (owner : Option Nat) : r.visit owner w i = w := by
  rw [visit_eq, if_pos h]

theorem foldl_visit_of_stopped (h : w.stopped = true) (owner : Option Nat) (cs : List Nat) :
    cs.foldl (r.visit owner) w = w := by
  induction cs with
  | nil => rfl
  | cons c cs ih => rw [List.foldl_cons, visit_of_stopped h, ih]

/-- A visit that goes no further is what `enter` does. -/
theorem visit_of_closed (hi : r.inScope i = true → r.isOpen i = false) :
    r.visit (r.ownerId i) w i = r.enter w i := by
  rw [visit_eq, enter]
  split
  · rfl
  · split
    · rfl
    · split
      · rfl
      · next hscope =>
        have hclosed := hi (by simpa using hscope)
        unfold isOpen at hclosed
        cases hv : r.table.verdict r.tree i with
        | skip => rw [hv] at hclosed; cases hclosed
        | sealed => rfl
        | statement compound descend =>
          rw [hv] at hclosed
          cases hclosed
          rfl

/-- Into an open node the walk goes by entering it and visiting its children under their owner. -/
theorem visit_of_open {entered rest : List Nat} (htrail : r.trail = entered ++ i :: rest)
    (hw : r.InStep entered w) (hscope : r.inScope i = true) (hopen : r.isOpen i = true) :
    r.visit (r.ownerId i) w i = (r.tree.children i).foldl
      (r.visit (if r.isStatement i then some (r.selection.idxOf i) else r.ownerId i))
      (r.enter w i) := by
  cases hstop : w.stopped with
  | true =>
    rw [visit_of_stopped hstop, enter_of_stopped hstop, foldl_visit_of_stopped hstop]
  | false =>
    rw [visit_eq, enter]
    simp only [hstop, Bool.false_eq_true, ↓reduceIte, hscope, Bool.not_true]
    split
    · rw [foldl_visit_of_stopped rfl]
    · unfold isOpen at hopen
      cases hv : r.table.verdict r.tree i with
      | skip => simp [isStatement, hv]
      | sealed => rw [hv] at hopen; cases hopen
      | statement compound descend =>
        rw [hv] at hopen
        have hdescend : descend = true := hopen
        have hkept : r.isKept i = true := by simp [isKept, isStatement, hscope, hv]
        simp [isStatement, hv, hdescend, idxOf_selection htrail hkept, ← hw hstop, Walk.count]

/-- Every visit follows the trail, by induction over the children. -/
theorem followsTrail (r : Reduction) (i : Nat) : r.FollowsTrail i := by
  induction i using SyntaxTree.child_induction r.tree with
  | step i ih =>
    intro entered rest w hreached htrail hw
    by_cases hi : r.inScope i = true ∧ r.isOpen i = true
    · obtain ⟨hscope, hopen⟩ := hi
      rw [trailFrom_of_open hreached] at htrail ⊢
      have htrail' : r.trail =
          (entered ++ [i]) ++ (r.tree.children i).flatMap r.trailFrom ++ rest := by
        rw [htrail]
        simp only [List.append_assoc, List.cons_append, List.nil_append]
      rw [visit_of_open (by rw [htrail, List.append_assoc, List.cons_append]) hw hscope hopen,
        List.foldl_cons]
      refine foldl_visit_eq ih (fun c hc => (reached_child hc).2 ⟨hreached, hscope, hopen⟩)
        (fun c hc => ?_) (entered ++ [i]) rest _ htrail' (hw.enter i)
      rw [ownerId, holder?_child hc]
      split
      · rfl
      · rfl
    · have hclosed : r.inScope i = true → r.isOpen i = false := fun hscope => by
        simpa [hscope] using hi
      rw [trailFrom_of_closed hreached hclosed]
      exact visit_of_closed hclosed

/-- **A walk is one pass over its trail**, whatever the signal to stop. -/
theorem walk_eq_foldl_enter (r : Reduction) : r.walk = r.trail.foldl r.enter {} := by
  unfold walk trail SyntaxTree.preorder
  cases hroot : r.tree.root? with
  | none => rfl
  | some root =>
    have hsize : r.tree.size ≠ 0 ∧ root = 0 := by
      rw [SyntaxTree.root?_eq] at hroot
      split at hroot
      · cases hroot
      · next h => exact ⟨h, (Option.some.inj hroot).symm⟩
    obtain ⟨hsize, rfl⟩ := hsize
    have hnone : r.tree.parent? 0 = none := by
      cases h : r.tree.parent? 0 with
      | none => rfl
      | some p => exact absurd (SyntaxTree.parent_lt h).1 (Nat.not_lt_zero p)
    have habove : r.tree.ancestors 0 = [] := climb_of_none hnone
    have hreached : r.Reached 0 := by
      refine ⟨⟨Nat.pos_of_ne_zero hsize, .inl rfl⟩, fun a ha => ?_⟩
      rw [habove] at ha
      cases ha
    have howner : r.ownerId 0 = none := by
      rw [ownerId, holder?, habove]
      rfl
    have htrail : r.trail = [] ++ r.trailFrom 0 ++ [] := by
      rw [trail, SyntaxTree.preorder, hroot, List.nil_append, List.append_nil]
      rfl
    have := r.followsTrail 0 [] [] {} hreached htrail fun _ => rfl
    rw [howner] at this
    exact this

end StatementOutline.Reduction
