import StatementOutline.Proofs.Outline.Halting

/-!
# How far a walk goes

A walk that nothing stops visits the root, and from a node in scope that is open all its children
(`Visits`); `visitCount` is their number, at most one for each node of the tree. Nodes out of scope
and nodes that are closed count as well, although nothing below them does.

The number decides what becomes of a walk whose signal is set from the start
(`outline_of_signal_fromStart`). The first look at the signal is at visit `max interval 1`, so the
walk fails if it gets there, and otherwise ends with the outline that it has without a signal.
-/

namespace StatementOutline.Reduction

variable {r : Reduction} {i m : Nat}

/-- A walk that nothing stops visits the node. -/
inductive Visits (r : Reduction) : Nat → Prop
  | root (h : 0 < r.tree.size) : r.Visits 0
  | child {p c : Nat} (hp : r.Visits p) (hscope : r.inScope p = true) (hopen : r.isOpen p = true)
      (hc : c ∈ r.tree.children p) : r.Visits c

theorem reached_zero (h : 0 < r.tree.size) : r.Reached 0 :=
  ⟨⟨h, .inl rfl⟩, fun a ha => absurd (SyntaxTree.lt_of_mem_ancestors ha) (Nat.not_lt_zero a)⟩

/-- Visited from the root down, or reached seen from below: the same nodes. -/
theorem visits_iff : r.Visits i ↔ r.Reached i := by
  constructor
  · intro h
    induction h with
    | root h => exact reached_zero h
    | child _ hscope hopen hc ih => exact (reached_child hc).2 ⟨ih, hscope, hopen⟩
  · intro h
    induction i using Nat.strongRecOn with
    | ind i ih =>
      obtain ⟨⟨hsize, hroot⟩, -⟩ := id h
      rcases hroot with rfl | hroot
      · exact .root hsize
      · obtain ⟨p, hp, -⟩ := (mem_climb r.tree.falling).1 hroot
        have hc := SyntaxTree.mem_children.2 hp
        obtain ⟨hreached, hscope, hopen⟩ := (reached_child hc).1 h
        exact .child (ih p (SyntaxTree.parent_lt hp).1 hreached) hscope hopen hc

instance : DecidablePred r.Visits :=
  fun _ => decidable_of_iff _ visits_iff.symm

/-- The number of nodes that a walk visits if nothing stops it. -/
def visitCount (r : Reduction) : Nat :=
  ((List.range r.tree.size).filter fun i => r.Visits i).length

theorem visitCount_le_size (r : Reduction) : r.visitCount ≤ r.tree.size := by
  have := List.length_filter_le (fun i => decide (r.Visits i)) (List.range r.tree.size)
  rwa [List.length_range] at this

/-- The trail has each visited node once. -/
theorem length_trail (r : Reduction) : r.trail.length = r.visitCount := by
  refine ((List.perm_ext_iff_of_nodup r.nodup_trail (List.nodup_range.filter _)).2
    fun i => ?_).length_eq
  simp only [trail, List.mem_filter, SyntaxTree.mem_preorder, List.mem_range, decide_eq_true_eq,
    visits_iff]
  exact ⟨fun h => ⟨h.1.1, h.2⟩, fun h => ⟨h.2.1, h.2⟩⟩

/-! ## A signal set from the start -/

/-- The reduction with its signal set from the start, and looks at the given visits. -/
def preset (r : Reduction) (interval : Nat) : Reduction :=
  { r with interval, signal := .fromStart }

/-- A signal that is set from the start is seen at every look. -/
theorem haltsAt_preset (r : Reduction) (k m : Nat) :
    (r.preset k).HaltsAt m ↔ 0 < m ∧ m ≤ r.visitCount ∧ max k 1 ∣ m := by
  rw [← length_trail]
  exact ⟨fun ⟨hpos, hle, hdvd, _⟩ => ⟨hpos, hle, hdvd⟩,
    fun ⟨hpos, hle, hdvd⟩ => ⟨hpos, hle, hdvd, rfl⟩⟩

theorem outline_preset_of_le {k : Nat} (h : max k 1 ≤ r.visitCount) :
    (r.preset k).outline = .error .disposed := by
  have hlook : (r.preset k).HaltsAt (max k 1) :=
    (haltsAt_preset r k _).2 ⟨by omega, h, Nat.dvd_refl _⟩
  rcases (r.preset k).halts_cases with hnone | ⟨m, hm, hfirst⟩
  · exact absurd hlook (hnone _)
  · rw [outline, if_pos (walk_of_halts hm hfirst).1]

theorem outline_preset_of_lt {k : Nat} (h : r.visitCount < max k 1) :
    (r.preset k).outline = (r.undisturbed k).outline := by
  have hnone : ∀ m, ¬ (r.preset k).HaltsAt m := fun m hm => by
    obtain ⟨hpos, hle, hdvd⟩ := (haltsAt_preset r k m).1 hm
    have := Nat.le_of_dvd hpos hdvd
    omega
  rw [outline, walk_of_not_halts hnone]
  rfl

/-- **What a signal set from the start does.** With no signal a walk visits every node that `Visits`
names, of which there are no more than nodes in the tree, and comes to one outline for all intervals
`k`. With the signal set from the start it fails if it visits `max k 1` nodes or more, and comes to
that same outline if not. -/
theorem outline_of_signal_fromStart (r : Reduction) :
    r.visitCount ≤ r.tree.size ∧
    ∃ o, ∀ k, (r.undisturbed k).walk.visited = r.visitCount ∧
      (r.undisturbed k).outline = .ok o ∧
      (r.preset k).outline = if max k 1 ≤ r.visitCount then .error .disposed else .ok o := by
  refine ⟨r.visitCount_le_size, Outline.pushAll {} (r.selection.map r.entry), fun k => ?_⟩
  have hvisited : (r.undisturbed k).walk.visited = r.trail.length := visited_walk_never rfl
  have hfull : (r.undisturbed k).outline =
      .ok (Outline.pushAll {} (r.selection.map r.entry)) := outline_eq_pushAll rfl
  refine ⟨hvisited.trans r.length_trail, hfull, ?_⟩
  split
  · next h => exact outline_preset_of_le h
  · next h => rw [outline_preset_of_lt (Nat.lt_of_not_le h), hfull]

end StatementOutline.Reduction
