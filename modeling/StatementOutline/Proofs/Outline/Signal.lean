import StatementOutline.Proofs.Outline.Selection

/-!
# Walks and the signal to stop

A signal once set stays set. So one that is not set when a walk is over was not set at any look
before, and the walk went as it goes with no signal at all and looks at other times
(`walk_eq_undisturbed`).
-/

namespace StatementOutline

/-- A signal that is set stays set when more statements collapse. -/
theorem StopSignal.isSet_mono {signal : StopSignal} {m n : Nat} (hmn : m ≤ n)
    (h : signal.isSet m = true) : signal.isSet n = true := by
  cases signal with
  | never => exact h
  | fromStart => rfl
  | atCollapse k =>
    simp only [isSet, Bool.and_eq_true, decide_eq_true_eq] at h ⊢
    omega

namespace Reduction

variable {r : Reduction} {w : Walk}

theorem notes_note (w : Walk) (note : Option CollapseNote) :
    w.notes.toList <+: (w.note note).notes.toList := by
  cases note with
  | none => exact List.prefix_rfl
  | some n => simp [Walk.note]

/-- Entering a node adds to the notes and takes none away. -/
theorem notes_enter (r : Reduction) (w : Walk) (i : Nat) :
    w.notes.toList <+: (r.enter w i).notes.toList := by
  have hnote := notes_note w.count (r.table.classify r.tree i).note
  unfold enter
  split
  · exact List.prefix_rfl
  · split
    · exact List.prefix_rfl
    · split
      · exact List.prefix_rfl
      · cases r.table.verdict r.tree i with
        | skip => exact hnote
        | sealed => exact hnote
        | statement compound descend => exact hnote

/-- The notes before a stretch of the walk are the first of those after it. -/
theorem notes_foldl_enter (r : Reduction) (w : Walk) (l : List Nat) :
    w.notes.toList <+: (l.foldl r.enter w).notes.toList := by
  induction l generalizing w with
  | nil => exact List.prefix_rfl
  | cons i l ih => exact (notes_enter r w i).trans (ih (r.enter w i))

/-- The reduction with no signal, and looks at other times. -/
def undisturbed (r : Reduction) (interval : Nat) : Reduction :=
  { r with interval, signal := .never }

/-- Where a look finds nothing, the walk does what it does without a signal. -/
theorem enter_undisturbed (h : r.seesSignal w.count = false) (interval i : Nat) :
    (r.undisturbed interval).enter w i = r.enter w i := by
  have hnever : (r.undisturbed interval).seesSignal w.count = false := seesSignal_never rfl _
  rw [enter, enter, h, hnever]
  rfl

/-- By `isSet_mono` and `notes_foldl_enter` a signal that is not set at the end was not set at any
node before, so each of them is entered as without it. -/
theorem foldl_enter_undisturbed (interval : Nat) (l : List Nat)
    (h : r.signal.isSet (l.foldl r.enter w).notes.size = false) :
    l.foldl (r.undisturbed interval).enter w = l.foldl r.enter w := by
  induction l generalizing w with
  | nil => rfl
  | cons i l ih =>
    have hw : r.seesSignal w.count = false := by
      rw [seesSignal, Bool.and_eq_false_iff]
      right
      cases hset : r.signal.isSet w.count.notes.size with
      | false => rfl
      | true =>
        have hle : w.notes.size ≤ ((i :: l).foldl r.enter w).notes.size :=
          (notes_foldl_enter r w (i :: l)).length_le
        rw [StopSignal.isSet_mono hle hset] at h
        cases h
    rw [List.foldl_cons, List.foldl_cons, enter_undisturbed hw]
    exact ih h

/-- **A signal that comes too late does not show.** If it is not set when the walk is over, the walk
is the one without a signal, whenever that looks. -/
theorem walk_eq_undisturbed (h : r.signal.isSet r.walk.notes.size = false) (interval : Nat) :
    r.walk = (r.undisturbed interval).walk := by
  rw [walk_eq_foldl_enter] at h
  rw [walk_eq_foldl_enter, walk_eq_foldl_enter]
  exact (foldl_enter_undisturbed interval r.trail h).symm

theorem stopped_walk_never (hn : r.signal = .never) : r.walk.stopped = false := by
  rw [walk_eq_foldl_enter]
  exact (foldl_enter_never hn rfl r.trail).1

end Reduction

end StatementOutline
