import StatementOutline.Proofs.Offset.Measure

/-!
# Offsets in 64 bits

`anchorsOf?` and `unitsAt?` make and read anchors as `anchorsOf` and `unitsAt` do, but every sum has
to fit in 64 bits, no difference may be negative, and the anchor that is read has to be there. For a
text of less than `2 ^ 64` bytes no such step fails (`toUnits_in_words`), also at positions inside a
character or behind the end. What carries this is that anchors increase strictly in bytes and in
units (`pairwise_anchorsFrom`) and that none has more units than bytes (`unit_le_of_mem`), since no
character is wider in a unit than in bytes.
-/

namespace StatementOutline

/-! ## Checked arithmetic -/

/-- The sum, if it fits in 64 bits. -/
def wordAdd? (a b : Nat) : Option Nat :=
  if a + b < 2 ^ 64 then some (a + b) else none

/-- The difference, if it is not negative. -/
def wordSub? (a b : Nat) : Option Nat :=
  if b ≤ a then some (a - b) else none

theorem wordAdd?_eq_some {a b : Nat} (h : a + b < 2 ^ 64) : wordAdd? a b = some (a + b) :=
  if_pos h

theorem wordSub?_eq_some {a b : Nat} (h : b ≤ a) : wordSub? a b = some (a - b) :=
  if_pos h

/-- No unit counts a character as more than its bytes. -/
theorem OffsetEncoding.width_le_utf8Size (encoding : OffsetEncoding) (c : Char) :
    encoding.width c ≤ c.utf8Size := by
  have hpos := c.utf8Size_pos
  cases encoding with
  | char => exact hpos
  | utf16 =>
    show utf16Width c ≤ c.utf8Size
    unfold utf16Width Char.utf8Size
    split
    · exact hpos
    · next hwide =>
      have hc : ∀ n : UInt32, n.toNat < 0x10000 → ¬ c.val ≤ n := fun n hn hle =>
        hwide (Nat.lt_of_le_of_lt (UInt32.le_iff_toNat_le.1 hle) hn)
      simp [hc]
  | utf8 => exact Nat.le_refl _

/-! ## Anchors -/

namespace Anchor

/-- The anchor stands before the other, in bytes and in units. -/
def Before (a b : Anchor) : Prop :=
  a.byte < b.byte ∧ a.unit < b.unit

/-- The anchor is passed at a byte position, and has no more units than bytes. -/
structure Passed (last : Anchor) (byte : Nat) : Prop where
  byte_le : last.byte ≤ byte
  unit_le : last.unit ≤ last.byte

/-- The anchor behind a character that begins at `byte`, when the last one so far is `last`. -/
def next (encoding : OffsetEncoding) (last : Anchor) (byte : Nat) (c : Char) : Anchor :=
  ⟨byte + c.utf8Size, last.unit + (byte - last.byte) + encoding.width c⟩

variable {last a b c : Anchor} {byte : Nat}

theorem Before.trans (hab : a.Before b) (hbc : b.Before c) : a.Before c :=
  ⟨Nat.lt_trans hab.1 hbc.1, Nat.lt_trans hab.2 hbc.2⟩

theorem Passed.later (h : last.Passed byte) (n : Nat) : last.Passed (byte + n) :=
  ⟨Nat.le_add_right_of_le h.byte_le, h.unit_le⟩

theorem Passed.before_next (h : last.Passed byte) (encoding : OffsetEncoding) (c : Char) :
    last.Before (last.next encoding byte c) := by
  have hbyte := h.byte_le
  have hsize := c.utf8Size_pos
  have hwidth := encoding.width_pos c
  simp only [Before, next]
  omega

theorem Passed.next (h : last.Passed byte) (encoding : OffsetEncoding) (c : Char) :
    (last.next encoding byte c).Passed (byte + c.utf8Size) := by
  have hbyte := h.byte_le
  have hunit := h.unit_le
  have hwidth := encoding.width_le_utf8Size c
  refine ⟨Nat.le_refl _, ?_⟩
  simp only [Anchor.next]
  omega

end Anchor

namespace UnitMap

variable {encoding : OffsetEncoding} {last a : Anchor} {byte : Nat} {cs : List Char} {c : Char}

theorem anchorsFrom_of_ascii (hc : isAscii c = true) :
    anchorsFrom encoding last byte (c :: cs) =
      anchorsFrom encoding last (byte + c.utf8Size) cs := by
  simp [anchorsFrom, hc]

theorem anchorsFrom_of_wide (hc : ¬ isAscii c = true) :
    anchorsFrom encoding last byte (c :: cs) = last.next encoding byte c ::
      anchorsFrom encoding (last.next encoding byte c) (byte + c.utf8Size) cs := by
  simp [anchorsFrom, Anchor.next, hc]

/-- Anchors increase strictly in both coordinates. -/
theorem pairwise_anchorsFrom (h : last.Passed byte) :
    (last :: anchorsFrom encoding last byte cs).Pairwise Anchor.Before := by
  induction cs generalizing last byte with
  | nil => simp [anchorsFrom]
  | cons c cs ih =>
    by_cases hc : isAscii c = true
    · rw [anchorsFrom_of_ascii hc]
      exact ih (h.later _)
    · rw [anchorsFrom_of_wide hc]
      have hrest := ih (h.next encoding c)
      have hnext := h.before_next encoding c
      refine List.pairwise_cons.2 ⟨fun a ha => ?_, hrest⟩
      rcases List.mem_cons.1 ha with rfl | ha
      · exact hnext
      · exact hnext.trans ((List.pairwise_cons.1 hrest).1 a ha)

theorem unit_le_of_mem (h : last.Passed byte)
    (ha : a ∈ last :: anchorsFrom encoding last byte cs) : a.unit ≤ a.byte := by
  induction cs generalizing last byte with
  | nil =>
    obtain rfl : a = last := by simpa [anchorsFrom] using ha
    exact h.unit_le
  | cons c cs ih =>
    by_cases hc : isAscii c = true
    · rw [anchorsFrom_of_ascii hc] at ha
      exact ih (h.later _) ha
    · rw [anchorsFrom_of_wide hc] at ha
      rcases List.mem_cons.1 ha with rfl | ha
      · exact h.unit_le
      · exact ih (h.next encoding c) ha

/-! ## Making anchors -/

/-- `anchorsFrom` with every step checked. -/
def anchorsFrom? (encoding : OffsetEncoding) (last : Anchor) (byte : Nat) :
    List Char → Option (List Anchor)
  | [] => some []
  | c :: cs => do
    let next ← wordAdd? byte c.utf8Size
    if isAscii c then
      anchorsFrom? encoding last next cs
    else
      let gap ← wordSub? byte last.byte
      let before ← wordAdd? last.unit gap
      let unit ← wordAdd? before (encoding.width c)
      let anchors ← anchorsFrom? encoding ⟨next, unit⟩ next cs
      return ⟨next, unit⟩ :: anchors

/-- `anchorsOf` with every step checked. -/
def anchorsOf? (encoding : OffsetEncoding) (text : String) : Option (Array Anchor) := do
  if encoding = .utf8 || text.toList.all isAscii then
    return #[⟨0, 0⟩]
  else
    let anchors ← anchorsFrom? encoding ⟨0, 0⟩ 0 text.toList
    return (⟨0, 0⟩ :: anchors).toArray

/-- No sum or difference on the way leaves a word, as all of them are at most the bytes so far. -/
theorem anchorsFrom?_eq (h : last.Passed byte) (hbytes : byte + Text.byteLength cs < 2 ^ 64) :
    anchorsFrom? encoding last byte cs = some (anchorsFrom encoding last byte cs) := by
  induction cs generalizing last byte with
  | nil => rfl
  | cons c cs ih =>
    rw [Text.byteLength] at hbytes
    have hnext : wordAdd? byte c.utf8Size = some (byte + c.utf8Size) :=
      wordAdd?_eq_some (by omega)
    by_cases hc : isAscii c = true
    · rw [anchorsFrom_of_ascii hc, ← ih (h.later _) (by omega)]
      simp [anchorsFrom?, hnext, hc]
    · have hbyte := h.byte_le
      have hunit := h.unit_le
      have hwidth := encoding.width_le_utf8Size c
      have hgap : wordSub? byte last.byte = some (byte - last.byte) := wordSub?_eq_some hbyte
      have hbefore : wordAdd? last.unit (byte - last.byte) =
          some (last.unit + (byte - last.byte)) := wordAdd?_eq_some (by omega)
      have hwhole : wordAdd? (last.unit + (byte - last.byte)) (encoding.width c) =
          some (last.unit + (byte - last.byte) + encoding.width c) :=
        wordAdd?_eq_some (by omega)
      have hrest := ih (h.next encoding c) (by omega)
      rw [Anchor.next] at hrest
      simp [anchorsFrom?, anchorsFrom, hnext, hc, hgap, hbefore, hwhole, hrest]

/-- A map that does without anchors keeps those of no characters. -/
theorem exists_anchorsOf (encoding : OffsetEncoding) (text : String) :
    ∃ cs, anchorsOf encoding text = (⟨0, 0⟩ :: anchorsFrom encoding ⟨0, 0⟩ 0 cs).toArray := by
  unfold anchorsOf
  split
  · exact ⟨[], rfl⟩
  · exact ⟨text.toList, rfl⟩

theorem passed_zero : Anchor.Passed ⟨0, 0⟩ 0 :=
  ⟨Nat.le_refl 0, Nat.le_refl 0⟩

theorem anchorsOf?_eq {text : String} (htext : text.utf8ByteSize < 2 ^ 64) :
    anchorsOf? encoding text = some (anchorsOf encoding text) := by
  rw [utf8ByteSize_eq_byteLength] at htext
  have hchecked : anchorsFrom? encoding ⟨0, 0⟩ 0 text.toList = _ :=
    anchorsFrom?_eq passed_zero (by omega)
  unfold anchorsOf? anchorsOf
  split
  · rfl
  · simp [hchecked]

/-! ## Reading anchors -/

/-- `unitsAt` with every step checked. -/
def unitsAt? (anchors : Array Anchor) (byte : Nat) : Option Nat := do
  let passed := partitionPoint (fun a => a.byte ≤ byte) anchors
  let anchor ← anchors[passed - 1]?
  let gap ← wordSub? byte anchor.byte
  wordAdd? anchor.unit gap

/-- The anchors up to a byte come first, so bisection finds the last of them. -/
theorem partitioned_of_pairwise {anchors : List Anchor} (h : anchors.Pairwise Anchor.Before)
    (byte : Nat) : Partitioned (fun a => a.byte ≤ byte) anchors.toArray := by
  intro i j hij hj
  simp only [holdsAt, List.getElem?_toArray, Option.any_eq_true, decide_eq_true_eq] at hj ⊢
  obtain ⟨b, hb, hle⟩ := hj
  obtain ⟨hjl, rfl⟩ := List.getElem?_eq_some_iff.1 hb
  have hil : i < anchors.length := Nat.lt_of_le_of_lt hij hjl
  refine ⟨anchors[i], List.getElem?_eq_getElem hil, ?_⟩
  rcases Nat.eq_or_lt_of_le hij with rfl | hlt
  · exact hle
  · have hbefore := List.pairwise_iff_getElem.1 h i j hil hjl hlt
    exact Nat.le_trans (Nat.le_of_lt hbefore.1) hle

/-- The anchor at the start is passed everywhere, so the search finds one. -/
theorem anchorBefore_spec {anchors : List Anchor}
    (h : (⟨0, 0⟩ :: anchors).Pairwise Anchor.Before) (byte : Nat) :
    1 ≤ partitionPoint (fun a => a.byte ≤ byte) (⟨0, 0⟩ :: anchors).toArray ∧
      (⟨0, 0⟩ :: anchors).toArray[
          partitionPoint (fun a => a.byte ≤ byte) (⟨0, 0⟩ :: anchors).toArray - 1]? =
        some (anchorBefore (⟨0, 0⟩ :: anchors).toArray byte) ∧
      (anchorBefore (⟨0, 0⟩ :: anchors).toArray byte).byte ≤ byte := by
  have hpoint := holdsAt_iff_lt_partitionPoint (partitioned_of_pairwise h byte)
  have hpos := (hpoint 0).1 (by simp [holdsAt])
  have hlast := (hpoint (partitionPoint _ _ - 1)).2 (Nat.sub_lt hpos Nat.one_pos)
  obtain ⟨a, ha, hle⟩ := (Option.any_eq_true _ _).1 hlast
  have hbefore : anchorBefore (⟨0, 0⟩ :: anchors).toArray byte = a := by
    simp only [anchorBefore, ha, Option.getD_some]
  rw [hbefore]
  exact ⟨hpos, ha, by simpa using hle⟩

theorem unitsAt_le {anchors : List Anchor} (h : (⟨0, 0⟩ :: anchors).Pairwise Anchor.Before)
    (hunits : ∀ a ∈ (⟨0, 0⟩ : Anchor) :: anchors, a.unit ≤ a.byte) (byte : Nat) :
    unitsAt (⟨0, 0⟩ :: anchors).toArray byte ≤ byte := by
  obtain ⟨-, hget, hle⟩ := anchorBefore_spec h byte
  have hunit := hunits _ (by simpa using Array.mem_of_getElem? hget)
  simp only [unitsAt]
  omega

/-- Conversion stays within words for every offset that is one. -/
theorem unitsAt?_eq {anchors : List Anchor} (h : (⟨0, 0⟩ :: anchors).Pairwise Anchor.Before)
    (hunits : ∀ a ∈ (⟨0, 0⟩ : Anchor) :: anchors, a.unit ≤ a.byte) {byte : Nat}
    (hbyte : byte < 2 ^ 64) :
    unitsAt? (⟨0, 0⟩ :: anchors).toArray byte =
      some (unitsAt (⟨0, 0⟩ :: anchors).toArray byte) := by
  obtain ⟨-, hget, hle⟩ := anchorBefore_spec h byte
  have htotal := unitsAt_le h hunits byte
  simp only [unitsAt] at htotal ⊢
  simp only [unitsAt?, hget, Option.bind_eq_bind, Option.bind_some, wordSub?_eq_some hle]
  exact wordAdd?_eq_some (by omega)

/-- **Offsets never leave 64 bits.** In a text of less than `2 ^ 64` bytes no step in making the
anchors overflows or goes below zero. The anchors begin at the start, increase strictly in bytes and
in units, and have no more units than bytes. At any position of 64 bits, on a boundary or not, the
search passes at least one anchor, the last one passed is at or before the position, and counting on
from it neither goes below zero nor comes out behind the position. -/
theorem toUnits_in_words {text : String} (htext : text.utf8ByteSize < 2 ^ 64)
    (encoding : OffsetEncoding) :
    anchorsOf? encoding text = some (anchorsOf encoding text) ∧
    (anchorsOf encoding text)[0]? = some ⟨0, 0⟩ ∧
    (anchorsOf encoding text).toList.Pairwise Anchor.Before ∧
    (∀ a ∈ anchorsOf encoding text, a.unit ≤ a.byte) ∧
    ∀ b < 2 ^ 64,
      1 ≤ partitionPoint (fun a => a.byte ≤ b) (anchorsOf encoding text) ∧
      (anchorsOf encoding text)[
          partitionPoint (fun a => a.byte ≤ b) (anchorsOf encoding text) - 1]? =
        some (anchorBefore (anchorsOf encoding text) b) ∧
      (anchorBefore (anchorsOf encoding text) b).byte ≤ b ∧
      (ofText encoding text).toUnits b ≤ b ∧
      unitsAt? (anchorsOf encoding text) b = some ((ofText encoding text).toUnits b) := by
  refine ⟨anchorsOf?_eq htext, ?_⟩
  show _ ∧ _ ∧ _ ∧ ∀ b < 2 ^ 64, _ ∧ _ ∧ _ ∧ unitsAt (anchorsOf encoding text) b ≤ b ∧
    _ = some (unitsAt (anchorsOf encoding text) b)
  obtain ⟨cs, hanchors⟩ := exists_anchorsOf encoding text
  have hpairwise : (_ :: anchorsFrom encoding ⟨0, 0⟩ 0 cs).Pairwise Anchor.Before :=
    pairwise_anchorsFrom passed_zero
  have hunits : ∀ a ∈ (⟨0, 0⟩ : Anchor) :: anchorsFrom encoding ⟨0, 0⟩ 0 cs, a.unit ≤ a.byte :=
    fun a ha => unit_le_of_mem passed_zero ha
  rw [hanchors]
  refine ⟨rfl, hpairwise, fun a ha => hunits a (by simpa using ha), fun b hb => ?_⟩
  obtain ⟨hpoint, hget, hle⟩ := anchorBefore_spec hpairwise b
  exact ⟨hpoint, hget, hle, unitsAt_le hpairwise hunits b, unitsAt?_eq hpairwise hunits hb⟩

/-- Inside the character of four bytes, and at the last position of 64 bits. -/
theorem toUnits_in_words_mixed : mixedText.utf8ByteSize < 2 ^ 64 ∧
    anchorsOf .utf16 mixedText = #[⟨0, 0⟩, ⟨2, 1⟩, ⟨6, 3⟩] ∧
    anchorsOf? .utf16 mixedText = some #[⟨0, 0⟩, ⟨2, 1⟩, ⟨6, 3⟩] ∧
    unitsAt? #[⟨0, 0⟩, ⟨2, 1⟩, ⟨6, 3⟩] 4 = some 3 ∧
    unitsAt? #[⟨0, 0⟩, ⟨2, 1⟩, ⟨6, 3⟩] (2 ^ 64 - 1) = some (2 ^ 64 - 4) := by
  have htext : mixedText.utf8ByteSize < 2 ^ 64 := by decide
  have hanchors : anchorsOf .utf16 mixedText = #[⟨0, 0⟩, ⟨2, 1⟩, ⟨6, 3⟩] := by decide +kernel
  have hinside : (ofText .utf16 mixedText).toUnits 4 = 3 := by decide +kernel
  have hend : (ofText .utf16 mixedText).toUnits (2 ^ 64 - 1) = 2 ^ 64 - 4 := by decide +kernel
  obtain ⟨hchecked, -, -, -, hread⟩ := toUnits_in_words htext .utf16
  rw [hanchors] at hchecked hread
  have hfour := (hread 4 (by decide)).2.2.2.2
  have hlast := (hread (2 ^ 64 - 1) (by decide)).2.2.2.2
  rw [hinside] at hfour
  rw [hend] at hlast
  exact ⟨htext, hanchors, hchecked, hfour, hlast⟩

end UnitMap

end StatementOutline
