import Mathlib.Data.Nat.Find
import StatementOutline.Proofs.Outline.Signal

/-!
# Where a walk halts

A walk looks at its signal at every `interval`-th visit. Up to the first look that finds the signal
set it goes as the full walk does, and there it halts for good (`walk_of_halts`); if no look finds
it set, the walk is the full one (`walk_of_not_halts`). Whether a look finds it set can be told from
the full walk, by the collapses noted before (`HaltsAt`).

A signal set by the `n`-th collapse, which the full walk notes at visit `v` (`NotesAt`), is found by
the first look behind `v`, if there is one (`walk_atCollapse`).
-/

namespace StatementOutline.Reduction

variable {r : Reduction} {w : Walk} {o : Outline} {i m n u v : Nat}

/-! ## A walk visit by visit -/

/-- Where a walk stands after its first `v` visits. -/
def after (r : Reduction) (v : Nat) : Walk :=
  (r.trail.take v).foldl r.enter {}

theorem after_length (r : Reduction) : r.after r.trail.length = r.walk := by
  rw [after, List.take_length, walk_eq_foldl_enter]

theorem walk_eq_foldl_drop (r : Reduction) (v : Nat) :
    r.walk = (r.trail.drop v).foldl r.enter (r.after v) := by
  rw [walk_eq_foldl_enter, after, ← List.foldl_append, List.take_append_drop]

theorem after_succ (hi : r.trail[v]? = some i) : r.after (v + 1) = r.enter (r.after v) i := by
  rw [after, List.take_add_one, hi, List.foldl_append]
  rfl

theorem after_add (r : Reduction) (u k : Nat) :
    r.after (u + k) = ((r.trail.drop u).take k).foldl r.enter (r.after u) := by
  rw [after, List.take_add, List.foldl_append]
  rfl

/-- Notes only grow from visit to visit. -/
theorem notes_after (r : Reduction) (huv : u ≤ v) :
    (r.after u).notes.toList <+: (r.after v).notes.toList := by
  obtain ⟨k, rfl⟩ := Nat.exists_eq_add_of_le huv
  rw [after_add]
  exact notes_foldl_enter r _ _

theorem size_notes_after (r : Reduction) (huv : u ≤ v) :
    (r.after u).notes.size ≤ (r.after v).notes.size :=
  (notes_after r huv).length_le

theorem notes_after_walk (r : Reduction) (v : Nat) :
    (r.after v).notes.toList <+: r.walk.notes.toList := by
  rw [walk_eq_foldl_drop r v]
  exact notes_foldl_enter r _ _

theorem foldl_enter_of_stopped (hw : w.stopped = true) (l : List Nat) : l.foldl r.enter w = w := by
  induction l with
  | nil => rfl
  | cons i l ih => rw [List.foldl_cons, enter_of_stopped hw, ih]

theorem walk_of_stopped_after (h : (r.after v).stopped = true) : r.walk = r.after v := by
  rw [walk_eq_foldl_drop r v, foldl_enter_of_stopped h]

theorem visited_enter (hw : w.stopped = false) (i : Nat) :
    (r.enter w i).visited = w.visited + 1 := by
  have hnote : ∀ note, (w.count.note note).visited = w.visited + 1 := by
    intro note
    cases note <;> rfl
  unfold enter
  rw [if_neg (by simp [hw])]
  split
  · rfl
  · split
    · rfl
    · cases r.table.verdict r.tree i with
      | skip => exact hnote _
      | sealed => exact hnote _
      | statement compound descend => exact hnote _

theorem after_never (hn : r.signal = .never) (hv : v ≤ r.trail.length) :
    (r.after v).stopped = false ∧ (r.after v).visited = v := by
  refine ⟨(foldl_enter_never hn rfl _).1, ?_⟩
  induction v with
  | zero => rfl
  | succ v ih =>
    have hstopped : (r.after v).stopped = false := (foldl_enter_never hn rfl _).1
    rw [after_succ (List.getElem?_eq_getElem hv), visited_enter hstopped, ih (by omega)]

theorem visited_walk_never (hn : r.signal = .never) : r.walk.visited = r.trail.length := by
  rw [← after_length]
  exact (after_never hn (Nat.le_refl _)).2

/-! ## Looks at the signal -/

/-- The reduction with no signal to stop. -/
def full (r : Reduction) : Reduction :=
  r.undisturbed r.interval

theorem after_full (hv : v ≤ r.trail.length) :
    (r.full.after v).stopped = false ∧ (r.full.after v).visited = v :=
  after_never (r := r.full) rfl hv

/-- Visit `m`, if the walk gets there, looks at the signal and finds it set. -/
def HaltsAt (r : Reduction) (m : Nat) : Prop :=
  0 < m ∧ m ≤ r.trail.length ∧ max r.interval 1 ∣ m ∧
    r.signal.isSet (r.full.after (m - 1)).notes.size = true

/-- As long as nothing stopped it, a walk sees the signal at the next visit if it halts there. -/
theorem seesSignal_after (hu : u < r.trail.length) :
    r.seesSignal (r.full.after u).count = true ↔ r.HaltsAt (u + 1) := by
  have hvisited : (r.full.after u).visited = u :=
    (after_full (Nat.le_of_lt hu)).2
  rw [seesSignal, Bool.and_eq_true, beq_iff_eq, ← Nat.dvd_iff_mod_eq_zero, HaltsAt]
  simp only [Walk.count, hvisited, Nat.add_sub_cancel]
  constructor
  · rintro ⟨hdvd, hset⟩
    exact ⟨Nat.succ_pos u, hu, hdvd, hset⟩
  · rintro ⟨-, -, hdvd, hset⟩
    exact ⟨hdvd, hset⟩

/-- Up to the first visit at which it halts, a walk is the full one. -/
theorem after_eq_undisturbed (hv : v ≤ r.trail.length) (h : ∀ m ≤ v, ¬ r.HaltsAt m) :
    r.after v = r.full.after v := by
  induction v with
  | zero => rfl
  | succ v ih =>
    have hi := List.getElem?_eq_getElem hv
    have hunseen : r.seesSignal (r.full.after v).count = false := by
      rw [← Bool.not_eq_true, seesSignal_after hv]
      exact h (v + 1) (Nat.le_refl _)
    rw [after_succ hi, ih (by omega) fun m hm => h m (by omega),
      ← enter_undisturbed hunseen r.interval]
    exact (after_succ (r := r.full) hi).symm

theorem walk_of_not_halts (h : ∀ m, ¬ r.HaltsAt m) :
    r.walk = r.full.walk := by
  rw [← after_length, ← after_length]
  exact after_eq_undisturbed (Nat.le_refl _) fun m _ => h m

/-- The walk halts at the first look that finds the signal set, with what it noted before. -/
theorem walk_of_halts (hm : r.HaltsAt m) (hfirst : ∀ j < m, ¬ r.HaltsAt j) :
    r.walk.stopped = true ∧ r.walk.visited = m ∧
      r.walk.notes = (r.full.after (m - 1)).notes := by
  obtain ⟨u, rfl⟩ := Nat.exists_eq_succ_of_ne_zero (Nat.ne_of_gt hm.1)
  have hu : u < r.trail.length := hm.2.1
  obtain ⟨hstopped, hvisited⟩ := after_full (Nat.le_of_lt hu)
  have hafter : r.after (u + 1) = (r.full.after u).count.stop := by
    rw [after_succ (List.getElem?_eq_getElem hu),
      after_eq_undisturbed (Nat.le_of_lt hu) fun j hj => hfirst j (Nat.lt_succ_of_le hj), enter,
      hstopped, (seesSignal_after hu).2 hm]
    rfl
  rw [walk_of_stopped_after (v := u + 1) (by rw [hafter]; rfl), hafter]
  exact ⟨rfl, congrArg Nat.succ hvisited, rfl⟩

/-- Either no look finds the signal set, or there is a first one that does. -/
theorem halts_cases (r : Reduction) :
    (∀ m, ¬ r.HaltsAt m) ∨ ∃ m, r.HaltsAt m ∧ ∀ j < m, ¬ r.HaltsAt j := by
  by_cases h : ∃ m, r.HaltsAt m
  · classical
    exact .inr ⟨Nat.find h, Nat.find_spec h, fun j hj => Nat.find_min h hj⟩
  · exact .inl fun m hm => h ⟨m, hm⟩

/-- A signal can only make a walk fail: whatever outline it comes to shows the selected nodes. -/
theorem shows_of_outline (h : r.outline = .ok o) : r.Shows r.selection o ∧ o.Linked := by
  have hfull : r.full.outline = .ok (Outline.pushAll {} (r.selection.map r.entry)) :=
    outline_eq_pushAll (r := r.full) rfl
  rcases r.halts_cases with hnone | ⟨m, hm, hfirst⟩
  · rw [outline, walk_of_not_halts hnone, ← outline, hfull] at h
    cases h
    exact ⟨r.shows_pushAll, Outline.Linked.empty.pushAll r.attachable_entries⟩
  · rw [outline, if_pos (walk_of_halts hm hfirst).1] at h
    cases h

/-! ## A signal set by a collapse -/

/-- The walk notes its `n`-th collapse at visit `v`. -/
def NotesAt (r : Reduction) (n v : Nat) : Prop :=
  (r.after (v - 1)).notes.size < n ∧ n ≤ (r.after v).notes.size

instance (r : Reduction) (n v : Nat) : Decidable (r.NotesAt n v) :=
  inferInstanceAs (Decidable (_ ∧ _))

/-- Each of the collapses that a walk notes is noted at some visit. -/
theorem exists_notesAt (hn : 0 < n) (hle : n ≤ r.walk.notes.size) : ∃ v, r.NotesAt n v := by
  rw [← after_length] at hle
  generalize r.trail.length = v at hle
  induction v with
  | zero => exact absurd hle (Nat.not_le_of_gt hn)
  | succ v ih =>
    by_cases hv : n ≤ (r.after v).notes.size
    · exact ih hv
    · exact ⟨v + 1, Nat.lt_of_not_le hv, hle⟩

/-- From the visit that notes the `n`-th collapse on, there are `n` notes or more. -/
theorem NotesAt.le_iff (h : r.NotesAt n v) (u : Nat) : n ≤ (r.after u).notes.size ↔ v ≤ u := by
  constructor
  · intro hu
    by_contra hlt
    have hbefore : (r.after u).notes.size ≤ (r.after (v - 1)).notes.size :=
      size_notes_after r (by omega)
    have := h.1
    omega
  · intro hvu
    exact Nat.le_trans h.2 (size_notes_after r hvu)

/-- Whether a walk ends with the signal set can be told from the full walk. -/
theorem isSet_walk (r : Reduction) :
    r.signal.isSet r.walk.notes.size = r.signal.isSet r.full.walk.notes.size := by
  rcases r.halts_cases with hnone | ⟨m, hm, hfirst⟩
  · rw [walk_of_not_halts hnone]
  · obtain ⟨-, -, hnotes⟩ := walk_of_halts hm hfirst
    have hle : (r.full.after (m - 1)).notes.size ≤ r.full.walk.notes.size :=
      (notes_after_walk r.full (m - 1)).length_le
    rw [hnotes, hm.2.2.2, StopSignal.isSet_mono hle hm.2.2.2]

theorem isSet_atCollapse (hn : 0 < n) {k : Nat} :
    (StopSignal.atCollapse n).isSet k = true ↔ n ≤ k := by
  simp [StopSignal.isSet, hn]

/-- A signal set by the collapse noted at visit `v` is found by every look behind `v`. -/
theorem haltsAt_iff (hsignal : r.signal = .atCollapse n) (hn : 0 < n) (hv : r.full.NotesAt n v) :
    r.HaltsAt m ↔ v < m ∧ m ≤ r.full.walk.visited ∧ max r.interval 1 ∣ m := by
  rw [visited_walk_never (r := r.full) rfl, HaltsAt, hsignal, isSet_atCollapse hn, hv.le_iff]
  constructor
  · rintro ⟨hpos, hlength, hdvd, hle⟩
    exact ⟨by omega, hlength, hdvd⟩
  · rintro ⟨hlt, hlength, hdvd⟩
    exact ⟨by omega, hlength, hdvd, by omega⟩

/-- **A signal set by a collapse.** The signal is set from visit `v` on. Either no look falls on a
later visit and the walk is the full one, or it halts at the first such look with the notes of the
full walk up to there. -/
theorem walk_atCollapse (hsignal : r.signal = .atCollapse n) (hn : 0 < n)
    (hv : r.full.NotesAt n v) :
    (∀ m, v < m → m ≤ r.full.walk.visited → ¬ max r.interval 1 ∣ m) ∧ r.walk = r.full.walk ∨
    ∃ m, v < m ∧ m ≤ r.full.walk.visited ∧ max r.interval 1 ∣ m ∧
      (∀ j, v < j → j < m → ¬ max r.interval 1 ∣ j) ∧ r.walk.stopped = true ∧
      r.walk.visited = m ∧ r.walk.notes = (r.full.after (m - 1)).notes := by
  rcases r.halts_cases with hnone | ⟨m, hm, hfirst⟩
  · refine .inl ⟨fun m hlt hle hdvd => ?_, walk_of_not_halts hnone⟩
    exact hnone m ((haltsAt_iff hsignal hn hv).2 ⟨hlt, hle, hdvd⟩)
  · obtain ⟨hlt, hle, hdvd⟩ := (haltsAt_iff hsignal hn hv).1 hm
    refine .inr ⟨m, hlt, hle, hdvd, fun j hvj hjm hj => ?_, walk_of_halts hm hfirst⟩
    exact hfirst j hjm ((haltsAt_iff hsignal hn hv).2 ⟨hvj, by omega, hj⟩)

end StatementOutline.Reduction
