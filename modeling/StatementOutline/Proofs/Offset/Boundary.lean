import StatementOutline.Offset.UnitMap
import StatementOutline.Text.Slice

/-!
# Units at boundaries

At a boundary of a text, between two of its characters, a `UnitMap` gives the sum of the widths of
the characters before it (`toUnits_byteLength`), whatever mixture of widths the text has. The
anchors of a text split there: those made by the characters before are the ones passed, and the last
of them keeps count of bytes and units (`lastAnchor_units`), since only ASCII stands behind it.
Inside a character a map promises nothing, so order is carried over on boundaries only
(`toUnits_mono`).
-/

namespace StatementOutline

/-! ## Widths -/

namespace OffsetEncoding

/-- Length of a list of characters in the unit. -/
def units (encoding : OffsetEncoding) : List Char → Nat
  | [] => 0
  | c :: cs => encoding.width c + encoding.units cs

theorem units_append (encoding : OffsetEncoding) (left right : List Char) :
    encoding.units (left ++ right) = encoding.units left + encoding.units right := by
  induction left with
  | nil => simp [units]
  | cons c left ih => simp [units, ih, Nat.add_assoc]

end OffsetEncoding

theorem utf8Size_of_isAscii {c : Char} (h : isAscii c = true) : c.utf8Size = 1 := by
  have hc : c.toNat < 0x80 := by simpa [isAscii] using h
  rw [Char.utf8Size_eq_one_iff, UInt32.le_iff_toNat_le]
  exact Nat.le_of_lt_succ hc

theorem width_of_isAscii {c : Char} (h : isAscii c = true) (encoding : OffsetEncoding) :
    encoding.width c = 1 := by
  cases encoding with
  | char => rfl
  | utf16 =>
    have : c.toNat < 0x80 := by simpa [isAscii] using h
    show utf16Width c = 1
    rw [utf16Width, if_pos (by omega)]
  | utf8 => exact utf8Size_of_isAscii h

theorem units_utf8 (cs : List Char) : OffsetEncoding.utf8.units cs = Text.byteLength cs := by
  induction cs with
  | nil => rfl
  | cons c cs ih =>
    rw [OffsetEncoding.units, ih]
    rfl

theorem byteLength_append (left right : List Char) :
    Text.byteLength (left ++ right) = Text.byteLength left + Text.byteLength right := by
  rw [← units_utf8, ← units_utf8, ← units_utf8, OffsetEncoding.units_append]

/-- A stretch of ASCII is as long in every unit as in bytes. -/
theorem units_of_isAscii {cs : List Char} (h : ∀ c ∈ cs, isAscii c = true)
    (encoding : OffsetEncoding) : encoding.units cs = Text.byteLength cs := by
  induction cs with
  | nil => rfl
  | cons c cs ih =>
    have hc := h c List.mem_cons_self
    rw [OffsetEncoding.units, ih fun d hd => h d (List.mem_cons_of_mem c hd),
      width_of_isAscii hc, Text.byteLength, utf8Size_of_isAscii hc]

/-! ## Anchors -/

/-- The partition point of a list is where the part that holds ends. -/
theorem partitionPoint_append {α : Type} {p : α → Bool} {passed ahead : List α}
    (hpassed : ∀ x ∈ passed, p x = true) (hahead : ∀ x ∈ ahead, p x = false) :
    partitionPoint p (passed ++ ahead).toArray = passed.length := by
  have hholds : ∀ i, holdsAt p (passed ++ ahead).toArray i = true ↔ i < passed.length := by
    intro i
    by_cases hi : i < passed.length
    · simp [holdsAt, List.getElem?_append_left hi, hi, hpassed]
    · simp only [holdsAt, List.getElem?_toArray, List.getElem?_append_right (Nat.le_of_not_lt hi),
        hi, iff_false, Option.any_eq_true_iff_get, not_exists, Bool.not_eq_true]
      intro h
      exact hahead _ (List.mem_of_getElem? (Option.some_get h).symm)
  have hpart : Partitioned p (passed ++ ahead).toArray := by
    intro i j hij hj
    exact (hholds i).2 (Nat.lt_of_le_of_lt hij ((hholds j).1 hj))
  have hiff : ∀ i, i < partitionPoint p (passed ++ ahead).toArray ↔ i < passed.length :=
    fun i => (holdsAt_iff_lt_partitionPoint hpart i).symm.trans (hholds i)
  have hle := hiff (partitionPoint p (passed ++ ahead).toArray)
  have hge := hiff passed.length
  omega

namespace UnitMap

variable {encoding : OffsetEncoding} {last a : Anchor} {byte : Nat} {cs left right : List Char}

/-- The last anchor once the characters `cs` have been read. -/
def lastAnchor (encoding : OffsetEncoding) (last : Anchor) (byte : Nat) (cs : List Char) : Anchor :=
  (last :: anchorsFrom encoding last byte cs).getLast (List.cons_ne_nil _ _)

/-- Anchors of a text in two parts: those of the first, and then those of the second from the last
anchor on. -/
theorem anchorsFrom_append (encoding : OffsetEncoding) (last : Anchor) (byte : Nat)
    (left right : List Char) :
    anchorsFrom encoding last byte (left ++ right) = anchorsFrom encoding last byte left ++
      anchorsFrom encoding (lastAnchor encoding last byte left) (byte + Text.byteLength left)
        right := by
  induction left generalizing last byte with
  | nil => simp [anchorsFrom, lastAnchor, Text.byteLength]
  | cons c left ih =>
    by_cases hc : isAscii c = true
    · simp [anchorsFrom, lastAnchor, Text.byteLength, hc, ih, Nat.add_assoc]
    · simp [anchorsFrom, lastAnchor, Text.byteLength, hc, ih, Nat.add_assoc]

/-- Anchors stand behind a character each, so after the start and at most at the end. -/
theorem byte_of_mem_anchorsFrom (ha : a ∈ anchorsFrom encoding last byte cs) :
    byte < a.byte ∧ a.byte ≤ byte + Text.byteLength cs := by
  induction cs generalizing last byte with
  | nil => cases ha
  | cons c cs ih =>
    have hpos := c.utf8Size_pos
    rw [anchorsFrom] at ha
    rw [Text.byteLength]
    split at ha
    · have := ih ha
      omega
    · rcases List.mem_cons.1 ha with rfl | ha
      · dsimp only
        omega
      · have := ih ha
        omega

/-- From the last anchor on, bytes count as units. -/
theorem lastAnchor_units (encoding : OffsetEncoding) (last : Anchor) (byte : Nat) (cs : List Char)
    (hlast : last.byte ≤ byte) :
    (lastAnchor encoding last byte cs).byte ≤ byte + Text.byteLength cs ∧
      (lastAnchor encoding last byte cs).unit +
          (byte + Text.byteLength cs - (lastAnchor encoding last byte cs).byte) =
        last.unit + (byte - last.byte) + encoding.units cs := by
  induction cs generalizing last byte with
  | nil => exact ⟨hlast, rfl⟩
  | cons c cs ih =>
    rw [OffsetEncoding.units, Text.byteLength, ← Nat.add_assoc]
    by_cases hc : isAscii c = true
    · have hstep : lastAnchor encoding last byte (c :: cs) =
          lastAnchor encoding last (byte + c.utf8Size) cs := by
        simp [lastAnchor, anchorsFrom, hc]
      have hsize := utf8Size_of_isAscii hc
      have hwidth := width_of_isAscii hc encoding
      obtain ⟨hle, hunits⟩ := ih last (byte + c.utf8Size) (by omega)
      rw [hstep]
      exact ⟨hle, by omega⟩
    · let anchor : Anchor :=
        ⟨byte + c.utf8Size, last.unit + (byte - last.byte) + encoding.width c⟩
      have hstep : lastAnchor encoding last byte (c :: cs) =
          lastAnchor encoding anchor (byte + c.utf8Size) cs := by
        simp [lastAnchor, anchorsFrom, hc, anchor]
      obtain ⟨hle, hunits⟩ := ih anchor (byte + c.utf8Size) (Nat.le_refl _)
      rw [hstep]
      refine ⟨hle, hunits.trans ?_⟩
      simp only [anchor, Nat.sub_self]
      omega

/-- Of the anchors passed at a position, and those ahead, the last one passed is used. -/
theorem unitsAt_append {passed ahead : List Anchor} (hne : passed ≠ [])
    (hpassed : ∀ a ∈ passed, a.byte ≤ byte) (hahead : ∀ a ∈ ahead, byte < a.byte) :
    unitsAt (passed ++ ahead).toArray byte =
      (passed.getLast hne).unit + (byte - (passed.getLast hne).byte) := by
  have hpoint : partitionPoint (fun a => decide (a.byte ≤ byte)) (passed ++ ahead).toArray =
      passed.length :=
    partitionPoint_append (fun a ha => by simpa using hpassed a ha)
      (fun a ha => by simpa using hahead a ha)
  have hpos := List.length_pos_iff.2 hne
  have hbefore : anchorBefore (passed ++ ahead).toArray byte = passed.getLast hne := by
    simp only [anchorBefore, hpoint, List.getElem?_toArray]
    rw [List.getElem?_append_left (by omega), ← List.getLast?_eq_getElem?,
      List.getLast?_eq_some_getLast hne, Option.getD_some]
  simp only [unitsAt, hbefore]

/-- The anchors of a text give the widths of the characters before a boundary, also where a map
does without them. -/
theorem unitsAt_anchorsFrom (encoding : OffsetEncoding) (left right : List Char) :
    unitsAt (⟨0, 0⟩ :: anchorsFrom encoding ⟨0, 0⟩ 0 (left ++ right)).toArray
      (Text.byteLength left) = encoding.units left := by
  obtain ⟨-, hunits⟩ := lastAnchor_units encoding ⟨0, 0⟩ 0 left (Nat.le_refl 0)
  rw [anchorsFrom_append, Nat.zero_add, ← List.cons_append,
    unitsAt_append (List.cons_ne_nil _ _)]
  · simpa [lastAnchor] using hunits
  · intro a ha
    rcases List.mem_cons.1 ha with rfl | ha
    · exact Nat.zero_le _
    · have := (byte_of_mem_anchorsFrom ha).2
      omega
  · intro a ha
    exact (byte_of_mem_anchorsFrom ha).1

/-- Converting the length of a part from the start gives what the part measures. -/
theorem toUnits_byteLength {text : String} (h : text.toList = left ++ right) :
    (ofText encoding text).toUnits (Text.byteLength left) = encoding.units left := by
  simp only [toUnits, ofText, anchorsOf]
  split
  · next hplain =>
    have hunits : encoding.units left = Text.byteLength left := by
      simp only [Bool.or_eq_true, decide_eq_true_eq, List.all_eq_true] at hplain
      rcases hplain with rfl | hascii
      · exact units_utf8 left
      · exact units_of_isAscii (fun c hc => hascii c (h ▸ List.mem_append_left right hc)) encoding
    have hstart : unitsAt (([⟨0, 0⟩] : List Anchor) ++ []).toArray (Text.byteLength left) = _ :=
      unitsAt_append (List.cons_ne_nil _ _) (by simp) (by simp)
    simpa [hunits] using hstart
  · rw [h, unitsAt_anchorsFrom]

end UnitMap

/-! ## Boundaries -/

/-- The byte position stands between two characters of the text, or at one of its ends. -/
def Text.IsBoundary (text : String) (byte : Nat) : Prop :=
  ∃ left right, text.toList = left ++ right ∧ Text.byteLength left = byte

theorem Text.isBoundary_iff {text : String} {byte : Nat} :
    Text.IsBoundary text byte ↔ (Text.splitAtByte? text.toList byte).isSome = true := by
  rw [Option.isSome_iff_exists]
  constructor
  · rintro ⟨left, right, h⟩
    exact ⟨(left, right), Text.splitAtByte?_eq_some_iff.2 h⟩
  · rintro ⟨⟨left, right⟩, h⟩
    exact ⟨left, right, Text.splitAtByte?_eq_some_iff.1 h⟩

instance (text : String) (byte : Nat) : Decidable (Text.IsBoundary text byte) :=
  decidable_of_iff _ Text.isBoundary_iff.symm

theorem Text.isBoundary_zero (text : String) : Text.IsBoundary text 0 :=
  ⟨[], text.toList, rfl, rfl⟩

theorem utf8ByteSize_eq_byteLength (text : String) :
    text.utf8ByteSize = Text.byteLength text.toList := by
  induction text using String.push_induction with
  | empty => rfl
  | push text c ih =>
    rw [String.utf8ByteSize_push, String.toList_push, byteLength_append, ih]
    rfl

theorem Text.isBoundary_utf8ByteSize (text : String) : Text.IsBoundary text text.utf8ByteSize :=
  ⟨text.toList, [], (List.append_nil _).symm, (utf8ByteSize_eq_byteLength text).symm⟩

/-- A boundary is where a text can be cut in two. -/
theorem Text.isBoundary_iff_append {text : String} {byte : Nat} : Text.IsBoundary text byte ↔
    ∃ before after : String, text = before ++ after ∧ before.utf8ByteSize = byte := by
  constructor
  · rintro ⟨left, right, htext, rfl⟩
    refine ⟨String.ofList left, String.ofList right, ?_, ?_⟩
    · rw [← String.ofList_append, ← htext, String.ofList_toList]
    · rw [utf8ByteSize_eq_byteLength, String.toList_ofList]
  · rintro ⟨before, after, rfl, rfl⟩
    exact ⟨before.toList, after.toList, String.toList_append, (utf8ByteSize_eq_byteLength _).symm⟩

/-- Two boundaries in order cut a text in three. -/
theorem Text.IsBoundary.exists_between {text : String} {b₁ b₂ : Nat}
    (h₁ : Text.IsBoundary text b₁) (h₂ : Text.IsBoundary text b₂) (hle : b₁ ≤ b₂) :
    ∃ left mid right, text.toList = left ++ (mid ++ right) ∧ Text.byteLength left = b₁ ∧
      Text.byteLength (left ++ mid) = b₂ := by
  obtain ⟨left₁, right₁, heq₁, rfl⟩ := h₁
  obtain ⟨left₂, right₂, heq₂, rfl⟩ := h₂
  rcases List.append_eq_append_iff.1 (heq₁.symm.trans heq₂) with ⟨mid, rfl, hr⟩ | ⟨mid, rfl, hr⟩
  · exact ⟨left₁, mid, right₂, hr ▸ heq₁, rfl, rfl⟩
  · rw [byteLength_append] at hle
    cases mid with
    | nil => exact ⟨left₂, [], right₁, by simpa using heq₁, by simp, by simp⟩
    | cons c mid =>
      have := c.utf8Size_pos
      rw [Text.byteLength] at hle
      omega

theorem UnitMap.toUnits_mono {text : String} {b₁ b₂ : Nat} (encoding : OffsetEncoding)
    (h₁ : Text.IsBoundary text b₁) (h₂ : Text.IsBoundary text b₂) (hle : b₁ ≤ b₂) :
    (ofText encoding text).toUnits b₁ ≤ (ofText encoding text).toUnits b₂ := by
  obtain ⟨left, mid, right, htext, rfl, rfl⟩ := h₁.exists_between h₂ hle
  rw [toUnits_byteLength htext, toUnits_byteLength (htext.trans (List.append_assoc ..).symm),
    OffsetEncoding.units_append]
  exact Nat.le_add_right _ _

end StatementOutline
