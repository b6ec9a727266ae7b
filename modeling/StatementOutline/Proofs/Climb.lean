/-!
# Climbing along links

Nodes of syntax trees, rows of a listing and statements of an outline all name what stands above
them by a number, and the number is smaller than their own (`Falling`). `climb` follows such links
to the end. A node with everything it climbs to is one line: two nodes on it stand one above the
other (`climb_total`), and nodes with the same link cannot both be on it (`sibling_unique`).

Numbers may also follow a preorder (`Preordered`). Then whatever is numbered between a node and one
below it is below it as well (`mem_climb_of_preordered`).
-/

namespace StatementOutline

variable {link : Nat → Option Nat} {a b c i j k p : Nat}

/-- What is reached from `i` by following links to smaller numbers, nearest first. -/
def climb (link : Nat → Option Nat) (i : Nat) : List Nat :=
  match h : (link i).filter (· < i) with
  | some p =>
    have : p < i := by simpa using (Option.filter_eq_some_iff.1 h).2
    p :: climb link p
  | none => []
  termination_by i

/-- Every link goes to a smaller number. -/
def Falling (link : Nat → Option Nat) : Prop :=
  ∀ i p, link i = some p → p < i

theorem climb_of_some (hl : Falling link) (h : link i = some p) :
    climb link i = p :: climb link p := by
  have hfilter : (link i).filter (· < i) = some p :=
    Option.filter_eq_some_iff.2 ⟨h, by simpa using hl i p h⟩
  rw [climb]
  split
  · next q hq =>
    rw [hfilter] at hq
    cases hq
    rfl
  · next hq =>
    rw [hfilter] at hq
    cases hq

theorem climb_of_none (h : link i = none) : climb link i = [] := by
  rw [climb]
  split
  · next q hq =>
    rw [h] at hq
    cases hq
  · rfl

theorem mem_climb (hl : Falling link) :
    a ∈ climb link i ↔ ∃ p, link i = some p ∧ (a = p ∨ a ∈ climb link p) := by
  cases h : link i with
  | none => simp [climb_of_none h]
  | some p => simp [climb_of_some hl h]

theorem mem_climb_of_link (hl : Falling link) (h : link i = some p) : p ∈ climb link i :=
  (mem_climb hl).2 ⟨p, h, .inl rfl⟩

theorem lt_of_mem_climb (hl : Falling link) (h : a ∈ climb link i) : a < i := by
  induction i using Nat.strongRecOn with
  | ind i ih =>
    obtain ⟨p, hp, rfl | ha⟩ := (mem_climb hl).1 h
    · exact hl i a hp
    · exact Nat.lt_trans (ih p (hl i p hp) ha) (hl i p hp)

theorem climb_trans (hl : Falling link) (hab : a ∈ climb link b) (hbc : b ∈ climb link c) :
    a ∈ climb link c := by
  induction c using Nat.strongRecOn with
  | ind c ih =>
    obtain ⟨p, hp, rfl | hb⟩ := (mem_climb hl).1 hbc
    · exact (mem_climb hl).2 ⟨b, hp, .inr hab⟩
    · exact (mem_climb hl).2 ⟨p, hp, .inr (ih p (hl c p hp) hb)⟩

/-- Of two nodes above a third, one stands above the other. -/
theorem climb_total (hl : Falling link) (ha : a ∈ climb link i) (hb : b ∈ climb link i) :
    a = b ∨ a ∈ climb link b ∨ b ∈ climb link a := by
  induction i using Nat.strongRecOn with
  | ind i ih =>
    obtain ⟨p, hp, ha⟩ := (mem_climb hl).1 ha
    obtain ⟨q, hq, hb⟩ := (mem_climb hl).1 hb
    rw [hp] at hq
    cases hq
    rcases ha with rfl | ha
    · rcases hb with rfl | hb
      · exact .inl rfl
      · exact .inr (.inr hb)
    · rcases hb with rfl | hb
      · exact .inr (.inl ha)
      · exact ih p (hl i p hp) ha hb

/-- What is above a node comes nearest first, so in falling order. -/
theorem pairwise_climb (hl : Falling link) (i : Nat) : (i :: climb link i).Pairwise (· > ·) := by
  induction i using Nat.strongRecOn with
  | ind i ih =>
    refine List.pairwise_cons.2 ⟨fun a ha => lt_of_mem_climb hl ha, ?_⟩
    cases h : link i with
    | none => rw [climb_of_none h]; exact .nil
    | some p => rw [climb_of_some hl h]; exact ih p (hl i p h)

/-! ## Nodes under a node -/

/-- Node `j` is `i` or stands below it. -/
def Under (link : Nat → Option Nat) (i j : Nat) : Prop :=
  j = i ∨ i ∈ climb link j

instance : Decidable (Under link i j) :=
  inferInstanceAs (Decidable (_ ∨ _))

theorem Under.le (hl : Falling link) (h : Under link i j) : i ≤ j := by
  rcases h with rfl | h
  · exact Nat.le_refl _
  · exact Nat.le_of_lt (lt_of_mem_climb hl h)

theorem Under.trans (hl : Falling link) (hij : Under link i j) (hjk : Under link j k) :
    Under link i k := by
  rcases hjk with rfl | hjk
  · exact hij
  · rcases hij with rfl | hij
    · exact .inr hjk
    · exact .inr (climb_trans hl hij hjk)

/-- On the way up to `i` the last step is made from a node linked to `i`. -/
theorem mem_climb_iff_under (hl : Falling link) :
    i ∈ climb link j ↔ ∃ c, link c = some i ∧ Under link c j := by
  constructor
  · intro h
    induction j using Nat.strongRecOn with
    | ind j ih =>
      obtain ⟨p, hp, rfl | hi⟩ := (mem_climb hl).1 h
      · exact ⟨j, hp, .inl rfl⟩
      · obtain ⟨c, hc, hcp⟩ := ih p (hl j p hp) hi
        exact ⟨c, hc, hcp.trans hl (.inr (mem_climb_of_link hl hp))⟩
  · rintro ⟨c, hc, rfl | hcj⟩
    · exact mem_climb_of_link hl hc
    · exact climb_trans hl (mem_climb_of_link hl hc) hcj

/-- Of two numbers with the same link, neither is above the other. -/
theorem sibling_not_mem_climb (hl : Falling link) (h : link b = link c) : b ∉ climb link c := by
  intro hbc
  obtain ⟨p, hp, hbp⟩ := (mem_climb hl).1 hbc
  have hpb := hl b p (h.trans hp)
  rcases hbp with rfl | hbp
  · exact Nat.lt_irrefl _ hpb
  · exact Nat.lt_asymm (lt_of_mem_climb hl hbp) hpb

/-- Two numbers with the same link are not both at or above a third. -/
theorem sibling_unique (hl : Falling link) (h : link b = link c) (hbj : Under link b j)
    (hcj : Under link c j) : b = c := by
  rcases hbj with rfl | hbj
  · rcases hcj with rfl | hcj
    · rfl
    · exact absurd hcj (sibling_not_mem_climb hl h.symm)
  · rcases hcj with rfl | hcj
    · exact absurd hbj (sibling_not_mem_climb hl h)
    · rcases climb_total hl hbj hcj with hbc | hbc | hbc
      · exact hbc
      · exact absurd hbc (sibling_not_mem_climb hl h)
      · exact absurd hbc (sibling_not_mem_climb hl h.symm)

/-- Where two lines part, everything on both is at or above the place. -/
theorem under_of_mem_both (hl : Falling link) (hb : link b = some p) (hc : link c = some p)
    (hbc : b ≠ c) (hbi : Under link b i) (hcj : Under link c j) (hai : a ∈ climb link i)
    (haj : a ∈ climb link j) : Under link a p := by
  have hpi : p ∈ climb link i := (mem_climb_iff_under hl).2 ⟨b, hb, hbi⟩
  rcases climb_total hl hai hpi with rfl | hap | hpa
  · exact .inl rfl
  · exact .inr hap
  · obtain ⟨d, hd, hda⟩ := (mem_climb_iff_under hl).1 hpa
    have hbd : b = d := sibling_unique hl (hb.trans hd.symm) hbi (hda.trans hl (.inr hai))
    have hcd : c = d := sibling_unique hl (hc.trans hd.symm) hcj (hda.trans hl (.inr haj))
    exact absurd (hbd.trans hcd.symm) hbc

/-- Every number climbs to one that links to nothing. -/
theorem exists_top (hl : Falling link) (j : Nat) : ∃ c, link c = none ∧ Under link c j := by
  induction j using Nat.strongRecOn with
  | ind j ih =>
    cases hj : link j with
    | none => exact ⟨j, hj, .inl rfl⟩
    | some p =>
      obtain ⟨c, hc, hcp⟩ := ih p (hl j p hj)
      exact ⟨c, hc, hcp.trans hl (.inr (mem_climb_of_link hl hj))⟩

/-- Where every node but 0 has a link, all stand below 0. -/
theorem zero_mem_climb (hl : Falling link) (h : ∀ i, 0 < i → i ≤ j → ∃ p, link i = some p)
    (hj : 0 < j) : 0 ∈ climb link j := by
  obtain ⟨top, htop, hunder⟩ := exists_top hl j
  rcases Nat.eq_zero_or_pos top with rfl | hpos
  · exact hunder.resolve_left (Nat.ne_of_gt hj)
  · obtain ⟨p, hp⟩ := h top hpos (hunder.le hl)
    rw [htop] at hp
    cases hp

/-! ## Numbers in preorder -/

/-- Every number is linked to the number before it or to one above that, if it has a link. -/
def Preordered (link : Nat → Option Nat) : Prop :=
  ∀ k p, link (k + 1) = some p → Under link p k

/-- In a preorder, what is numbered between a number and one below it is below it too. -/
theorem mem_climb_of_preordered (hl : Falling link) (h : Preordered link) (haj : a < j)
    (hjk : j ≤ k) (hak : a ∈ climb link k) : a ∈ climb link j := by
  induction k with
  | zero => omega
  | succ k ih =>
    rcases Nat.eq_or_lt_of_le hjk with rfl | hjk
    · exact hak
    · obtain ⟨p, hp, hap⟩ := (mem_climb hl).1 hak
      have hunder : Under link a k := Under.trans hl (hap.imp_left Eq.symm) (h k p hp)
      rcases hunder with rfl | hak
      · omega
      · exact ih (Nat.le_of_lt_succ hjk) hak

end StatementOutline
