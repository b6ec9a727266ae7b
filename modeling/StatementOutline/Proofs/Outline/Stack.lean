import StatementOutline.Outline.Reduction
import StatementOutline.Proofs.SyntaxTree.Ancestry

/-!
# A walk from a stack

A walk can be taken without recursion, from a stack of nodes that are still to be visited, each with
the statement that its own statements belong to. A turn takes the top off, does with that node what
a visit does with the node itself, and puts its children in its place, the first of them on top,
unless the visit leaves them (`turn`). Turns are taken until the stack is empty or the signal is
seen, in which case the rest of the stack is left where it is (`Ends`).

This ends in every tree, and only in the walk of the recursion (`ends_walk`). The stack holds the
visits that the recursion has not made yet: a visit is a turn and then the visits that the turn puts
on the stack, from the top down (`visit_eq_foldl_turn`).
-/

namespace StatementOutline.Reduction

/-- A node to visit, and the statement that its statements belong to. -/
structure Pending where
  node : Nat
  owner : Option Nat
  deriving DecidableEq, Repr

variable {r : Reduction} {w w' v : Walk} {p q : Pending} {stack : List Pending}

/-- The children of node `i`, to be visited for `owner`. -/
def pendingBelow (r : Reduction) (i : Nat) (owner : Option Nat) : List Pending :=
  (r.tree.children i).map fun c => ⟨c, owner⟩

/-- One turn, at a node that was taken off the stack: the walk after it, and what is to be visited
next. -/
def turn (r : Reduction) (w : Walk) (p : Pending) : Walk × List Pending :=
  if r.seesSignal w.count then (w.count.stop, [])
  else if !r.inScope p.node then (w.count, [])
  else
    let noted := w.count.note (r.table.classify r.tree p.node).note
    match r.table.verdict r.tree p.node with
    | .sealed => (noted, [])
    | .skip => (noted, r.pendingBelow p.node p.owner)
    | .statement compound descend =>
      let pushed := noted.push (r.tree.node p.node) compound p.owner
      (pushed, if descend then r.pendingBelow p.node (some noted.outline.size) else [])

/-- Turns that start at walk `w` with the given stack end in a walk. The top of the stack stands
last. -/
inductive Ends (r : Reduction) : Walk → List Pending → Walk → Prop
  | emptied {w : Walk} : r.Ends w [] w
  | stopped {w : Walk} {stack : List Pending} (hw : w.stopped = true) : r.Ends w stack w
  | pop {w w' : Walk} {stack : List Pending} {p : Pending} (hw : w.stopped = false)
      (next : r.Ends (r.turn w p).1 (stack ++ (r.turn w p).2.reverse) w') :
      r.Ends w (stack ++ [p]) w'

/-- A walk that was stopped takes no further turn. -/
theorem Ends.eq_of_stopped (h : r.Ends w stack w') (hw : w.stopped = true) : w' = w := by
  cases h with
  | emptied => rfl
  | stopped _ => rfl
  | pop hrunning _ => rw [hw] at hrunning; cases hrunning

/-- There is one end at most: at each stack there is one turn to take, or none. -/
theorem Ends.unique (h : r.Ends w stack w') (h' : r.Ends w stack v) : w' = v := by
  induction h with
  | emptied =>
    generalize hstack : ([] : List Pending) = stack at h'
    cases h' with
    | emptied => rfl
    | stopped _ => rfl
    | pop _ _ => simp at hstack
  | stopped hw => exact (h'.eq_of_stopped hw).symm
  | @pop w w' stack p hw next ih =>
    generalize hstack : stack ++ [p] = stack' at h'
    cases h' with
    | emptied => simp at hstack
    | stopped hstopped => rw [hw] at hstopped; cases hstopped
    | pop _ next' =>
      obtain ⟨rfl, hp⟩ := List.append_inj' hstack rfl
      cases hp
      exact ih next'

/-! ## Turns against visits -/

/-- The visit that a pending node stands for. -/
def visitPending (r : Reduction) (w : Walk) (p : Pending) : Walk :=
  r.visit p.owner w p.node

theorem foldl_pendingBelow (r : Reduction) (w : Walk) (i : Nat) (owner : Option Nat) :
    (r.pendingBelow i owner).foldl r.visitPending w =
      (r.tree.children i).foldl (r.visit owner) w := by
  rw [pendingBelow, List.foldl_map]
  rfl

/-- A visit is a turn and then the visits that the turn leaves to do. -/
theorem visit_eq_foldl_turn (hw : w.stopped = false) (p : Pending) :
    r.visitPending w p = (r.turn w p).2.foldl r.visitPending (r.turn w p).1 := by
  rw [visitPending, visit_eq, turn, hw, if_neg Bool.false_ne_true]
  split
  · rfl
  · split
    · rfl
    · cases r.table.verdict r.tree p.node with
      | sealed => rfl
      | skip => exact (foldl_pendingBelow r _ p.node p.owner).symm
      | statement compound descend =>
        cases descend with
        | false => rfl
        | true => exact (foldl_pendingBelow r _ p.node _).symm

/-- A turn leaves nothing but children of its node to visit. -/
theorem mem_children_of_mem_turn (h : q ∈ (r.turn w p).2) :
    q.node ∈ r.tree.children p.node := by
  have hbelow : ∀ {owner}, q ∈ r.pendingBelow p.node owner → q.node ∈ r.tree.children p.node := by
    intro owner hq
    obtain ⟨c, hc, rfl⟩ := List.mem_map.1 hq
    exact hc
  unfold turn at h
  split at h
  · cases h
  · split at h
    · cases h
    · cases hv : r.table.verdict r.tree p.node with
      | sealed => rw [hv] at h; cases h
      | skip => rw [hv] at h; exact hbelow h
      | statement compound descend =>
        rw [hv] at h
        cases descend with
        | false => cases h
        | true => exact hbelow h

/-- If each of some nodes may go on top of a stack in place of its visit, so may all of them, the
last of them first. -/
theorem Ends.pushAll {ps : List Pending}
    (hps : ∀ p ∈ ps, ∀ {w w' stack}, r.Ends (r.visitPending w p) stack w' →
      r.Ends w (stack ++ [p]) w')
    (h : r.Ends (ps.foldl r.visitPending w) stack w') :
    r.Ends w (stack ++ ps.reverse) w' := by
  induction ps generalizing w with
  | nil => rwa [List.reverse_nil, List.append_nil]
  | cons p ps ih =>
    have hrest := ih (fun q hq => hps q (List.mem_cons_of_mem p hq)) h
    rw [List.reverse_cons, ← List.append_assoc]
    exact hps p List.mem_cons_self hrest

/-- **One node on the stack.** With a node on top, the turns end as they do without it after the
visit of that node. -/
theorem Ends.push (i : Nat) : ∀ (owner : Option Nat) {w w' : Walk} {stack : List Pending},
    r.Ends (r.visitPending w ⟨i, owner⟩) stack w' → r.Ends w (stack ++ [⟨i, owner⟩]) w' := by
  induction i using SyntaxTree.child_induction r.tree with
  | step i ih =>
    intro owner w w' stack h
    cases hw : w.stopped with
    | true =>
      have hvisit : r.visitPending w ⟨i, owner⟩ = w := by
        rw [visitPending, visit_eq, if_pos hw]
      rw [hvisit] at h
      rw [h.eq_of_stopped hw]
      exact .stopped hw
    | false =>
      rw [visit_eq_foldl_turn hw] at h
      exact .pop hw (h.pushAll fun q hq => ih q.node (mem_children_of_mem_turn hq) q.owner)

/-- The stack that a walk starts with: the root, if there is one, for no statement. -/
def pendingAtStart (r : Reduction) : List Pending :=
  r.tree.root?.toList.map fun root => ⟨root, none⟩

/-- **A walk from a stack.** The turns from the root come to an end, and it is the walk of the
recursion, whatever the tree, the table, the range, the interval and the signal. -/
theorem ends_walk : r.Ends {} r.pendingAtStart w ↔ w = r.walk := by
  have hwalk : r.Ends {} r.pendingAtStart r.walk := by
    unfold walk pendingAtStart
    cases r.tree.root? with
    | none => exact .emptied
    | some root => exact Ends.push root none .emptied
  constructor
  · intro h
    exact h.unique hwalk
  · rintro rfl
    exact hwalk

end StatementOutline.Reduction
