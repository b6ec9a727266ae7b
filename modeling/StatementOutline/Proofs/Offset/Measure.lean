import Mathlib.Algebra.GroupWithZero.Nat
import StatementOutline.Proofs.Offset.Boundary
import StatementOutline.Span

/-!
# Measuring up to a boundary

`unitsBefore` measures the text in front of a byte position, as a caller would who has the text and
no map. At boundaries a map gives the same (`toUnits_eq_unitsBefore`), so a range that is checked
against the length of the text and a node that went through a map are in the same unit. No character
has width zero, so boundaries keep their order strictly (`unitsBefore_le_iff`), and a test of scope
comes out the same in every unit (`inScope_measureSpan`). A map, its anchors, the sum of the widths
and the ways to measure a text agree on all boundaries (`toUnits_exact`).
-/

namespace StatementOutline

variable {text : String} {left mid right : List Char} {b₁ b₂ byte : Nat}

theorem Text.slice?_of_append (h : text.toList = left ++ (mid ++ right)) :
    Text.slice? text (Text.byteLength left) (Text.byteLength (left ++ mid)) =
      some (String.ofList mid) := by
  have hbytes := byteLength_append left mid
  have hstart : Text.splitAtByte? text.toList (Text.byteLength left) = some (left, mid ++ right) :=
    Text.splitAtByte?_eq_some_iff.2 ⟨h, rfl⟩
  have hstop : Text.splitAtByte? (mid ++ right)
      (Text.byteLength (left ++ mid) - Text.byteLength left) = some (mid, right) :=
    Text.splitAtByte?_eq_some_iff.2 ⟨rfl, by omega⟩
  rw [Text.slice?, if_neg (by omega), hstart]
  simp only [Option.bind_eq_bind, Option.bind_some, hstop]
  rfl

namespace OffsetEncoding

/-- Length, in the unit, of the text before a byte position. -/
def unitsBefore (encoding : OffsetEncoding) (text : String) (byte : Nat) : Nat :=
  encoding.measure ((Text.slice? text 0 byte).getD "")

/-- A stretch of bytes, measured in the unit. -/
def measureSpan (encoding : OffsetEncoding) (text : String) (bytes : Span) : Span :=
  ⟨encoding.unitsBefore text bytes.start, encoding.unitsBefore text bytes.stop⟩

/-! ## Lengths are sums of widths -/

theorem width_pos (encoding : OffsetEncoding) (c : Char) : 0 < encoding.width c := by
  cases encoding with
  | char => exact Nat.zero_lt_one
  | utf16 =>
    simp only [width, utf16Width]
    split
    · exact Nat.zero_lt_one
    · exact Nat.zero_lt_two
  | utf8 => exact c.utf8Size_pos

theorem units_eq_sum (encoding : OffsetEncoding) (cs : List Char) :
    encoding.units cs = (cs.map encoding.width).sum := by
  induction cs with
  | nil => rfl
  | cons c cs ih => rw [units, ih, List.map_cons, List.sum_cons]

theorem units_char (cs : List Char) : OffsetEncoding.char.units cs = cs.length := by
  induction cs with
  | nil => rfl
  | cons c cs ih => simp [units, width, ih, Nat.add_comm]

theorem foldl_utf16Width (cs : List Char) (n : Nat) :
    cs.foldl (fun units c => units + utf16Width c) n = n + OffsetEncoding.utf16.units cs := by
  induction cs generalizing n with
  | nil => rfl
  | cons c cs ih => rw [List.foldl_cons, ih, units, width, Nat.add_assoc]

/-- The length of a text is the sum of the widths of its characters, however it is counted. -/
theorem measure_eq_units (encoding : OffsetEncoding) (text : String) :
    encoding.measure text = encoding.units text.toList := by
  cases encoding with
  | char =>
    simp only [measure]
    split
    · next hascii =>
      rw [utf8ByteSize_eq_byteLength, units_of_isAscii (List.all_eq_true.1 hascii)]
    · rw [units_char, String.length_toList]
  | utf16 =>
    simp only [measure]
    rw [foldl_utf16Width, Nat.zero_add]
  | utf8 =>
    simp only [measure]
    rw [utf8ByteSize_eq_byteLength, units_utf8]

/-! ## Boundaries -/

theorem unitsBefore_byteLength (encoding : OffsetEncoding) (h : text.toList = left ++ right) :
    encoding.unitsBefore text (Text.byteLength left) = encoding.units left := by
  have hslice : Text.slice? text 0 (Text.byteLength left) = some (String.ofList left) :=
    Text.slice?_of_append (h.trans (List.nil_append _).symm)
  rw [unitsBefore, hslice, Option.getD_some, measure_eq_units, String.toList_ofList]

theorem unitsBefore_zero (encoding : OffsetEncoding) (text : String) :
    encoding.unitsBefore text 0 = 0 :=
  encoding.unitsBefore_byteLength (List.nil_append text.toList).symm

theorem unitsBefore_utf8ByteSize (encoding : OffsetEncoding) (text : String) :
    encoding.unitsBefore text text.utf8ByteSize = encoding.measure text := by
  rw [utf8ByteSize_eq_byteLength, measure_eq_units]
  exact encoding.unitsBefore_byteLength (List.append_nil _).symm

/-- At a boundary, the map of anchors gives what the text before it measures. -/
theorem toUnits_eq_unitsBefore (encoding : OffsetEncoding) (h : Text.IsBoundary text byte) :
    (UnitMap.ofText encoding text).toUnits byte = encoding.unitsBefore text byte := by
  obtain ⟨left, right, htext, rfl⟩ := h
  rw [UnitMap.toUnits_byteLength htext, encoding.unitsBefore_byteLength htext]

/-- Of two boundaries, the later one has more units before it, since no character is without
width. -/
theorem unitsBefore_lt (encoding : OffsetEncoding) (h₁ : Text.IsBoundary text b₁)
    (h₂ : Text.IsBoundary text b₂) (hlt : b₁ < b₂) :
    encoding.unitsBefore text b₁ < encoding.unitsBefore text b₂ := by
  obtain ⟨left, mid, right, htext, rfl, rfl⟩ := h₁.exists_between h₂ (Nat.le_of_lt hlt)
  rw [encoding.unitsBefore_byteLength htext,
    encoding.unitsBefore_byteLength (htext.trans (List.append_assoc ..).symm), units_append]
  cases mid with
  | nil => simp at hlt
  | cons c mid =>
    have := encoding.width_pos c
    rw [units]
    omega

theorem unitsBefore_le_iff (encoding : OffsetEncoding) (h₁ : Text.IsBoundary text b₁)
    (h₂ : Text.IsBoundary text b₂) :
    encoding.unitsBefore text b₁ ≤ encoding.unitsBefore text b₂ ↔ b₁ ≤ b₂ := by
  rcases Nat.lt_trichotomy b₁ b₂ with h | rfl | h
  · have := encoding.unitsBefore_lt h₁ h₂ h
    omega
  · simp
  · have := encoding.unitsBefore_lt h₂ h₁ h
    omega

theorem unitsBefore_lt_iff (encoding : OffsetEncoding) (h₁ : Text.IsBoundary text b₁)
    (h₂ : Text.IsBoundary text b₂) :
    encoding.unitsBefore text b₁ < encoding.unitsBefore text b₂ ↔ b₁ < b₂ := by
  rw [← Nat.not_le, ← Nat.not_le, encoding.unitsBefore_le_iff h₂ h₁]

end OffsetEncoding

/-- **A map is exact on boundaries.** Both ends of a text are boundaries. At every boundary the map
of the text gives the sum of the widths of the characters before it, which is the length of the
text before it; the anchors alone give the same, whether or not the map keeps them. So the offsets
of boundaries are strictly increasing, and the length of the map is that of the text. -/
theorem UnitMap.toUnits_exact (encoding : OffsetEncoding) (text : String) :
    (Text.IsBoundary text 0 ∧ Text.IsBoundary text text.utf8ByteSize) ∧
    (∀ b, Text.IsBoundary text b → ∃ before after : String,
      text = before ++ after ∧ before.utf8ByteSize = b ∧
      (ofText encoding text).toUnits b = (before.toList.map encoding.width).sum ∧
      (ofText encoding text).toUnits b = encoding.measure before ∧
      (ofText encoding text).toUnits b =
        unitsAt (⟨0, 0⟩ :: anchorsFrom encoding ⟨0, 0⟩ 0 text.toList).toArray b) ∧
    (∀ b₁ b₂, Text.IsBoundary text b₁ → Text.IsBoundary text b₂ → b₁ < b₂ →
      (ofText encoding text).toUnits b₁ < (ofText encoding text).toUnits b₂) ∧
    (ofText encoding text).length = encoding.measure text := by
  refine ⟨⟨Text.isBoundary_zero text, Text.isBoundary_utf8ByteSize text⟩, ?_, ?_, ?_⟩
  · intro b hb
    obtain ⟨before, after, rfl, rfl⟩ := Text.isBoundary_iff_append.1 hb
    have hunits : (ofText encoding (before ++ after)).toUnits before.utf8ByteSize =
        encoding.units before.toList := by
      rw [utf8ByteSize_eq_byteLength]
      exact toUnits_byteLength String.toList_append
    refine ⟨before, after, rfl, rfl, ?_, ?_, ?_⟩
    · rw [hunits, encoding.units_eq_sum]
    · rw [hunits, encoding.measure_eq_units]
    · rw [hunits, String.toList_append, utf8ByteSize_eq_byteLength, unitsAt_anchorsFrom]
  · intro b₁ b₂ h₁ h₂ hlt
    rw [encoding.toUnits_eq_unitsBefore h₁, encoding.toUnits_eq_unitsBefore h₂]
    exact encoding.unitsBefore_lt h₁ h₂ hlt
  · show (ofText encoding text).toUnits text.utf8ByteSize = encoding.measure text
    rw [encoding.toUnits_eq_unitsBefore (Text.isBoundary_utf8ByteSize text),
      encoding.unitsBefore_utf8ByteSize]

/-- Characters of two, four and one bytes. -/
def mixedText : String :=
  "é😀a"

theorem toUnits_exact_mixed :
    (Text.IsBoundary mixedText 2 ∧ Text.IsBoundary mixedText 6) ∧
    ((∃ before after : String, mixedText = before ++ after ∧ before.utf8ByteSize = 6 ∧
        (UnitMap.ofText .utf16 mixedText).toUnits 6 = OffsetEncoding.utf16.measure before) ∧
      (UnitMap.ofText .utf16 mixedText).toUnits 2 < (UnitMap.ofText .utf16 mixedText).toUnits 6) ∧
    ¬ Text.IsBoundary mixedText 4 := by
  have h₂ : Text.IsBoundary mixedText 2 := by decide
  have h₆ : Text.IsBoundary mixedText 6 := by decide
  obtain ⟨-, hunits, hlt, -⟩ := UnitMap.toUnits_exact .utf16 mixedText
  obtain ⟨before, after, htext, hbytes, -, hmeasure, -⟩ := hunits 6 h₆
  exact ⟨⟨h₂, h₆⟩, ⟨⟨before, after, htext, hbytes, hmeasure⟩, hlt 2 6 h₂ h₆ (by decide)⟩,
    by decide⟩

/-! ## Spans between boundaries -/

/-- Both ends of the stretch of bytes are boundaries of the text. -/
def Text.AtBoundaries (text : String) (bytes : Span) : Prop :=
  Text.IsBoundary text bytes.start ∧ Text.IsBoundary text bytes.stop

instance (text : String) (bytes : Span) : Decidable (Text.AtBoundaries text bytes) :=
  inferInstanceAs (Decidable (_ ∧ _))

theorem Text.atBoundaries_default (text : String) : Text.AtBoundaries text default :=
  ⟨Text.isBoundary_zero text, Text.isBoundary_zero text⟩

namespace OffsetEncoding

variable {s range : Span}

theorem measureSpan_default (encoding : OffsetEncoding) (text : String) :
    encoding.measureSpan text default = default := by
  show (⟨encoding.unitsBefore text 0, encoding.unitsBefore text 0⟩ : Span) = ⟨0, 0⟩
  rw [encoding.unitsBefore_zero]

/-- Scope can be told in any unit. -/
theorem inScope_measureSpan (encoding : OffsetEncoding) (hs : Text.AtBoundaries text s)
    (hr : Text.AtBoundaries text range) :
    (encoding.measureSpan text s).inScope (encoding.measureSpan text range) = s.inScope range := by
  rw [Bool.eq_iff_iff, Span.inScope_iff, Span.inScope_iff]
  simp only [measureSpan, encoding.unitsBefore_lt_iff hs.1 hr.2,
    encoding.unitsBefore_lt_iff hr.1 hs.2, encoding.unitsBefore_le_iff hs.1 hr.1,
    encoding.unitsBefore_le_iff hr.2 hs.2]

/-- Whether a span holds a boundary can be told in any unit. -/
theorem contains_measureSpan (encoding : OffsetEncoding) (hs : Text.AtBoundaries text s)
    (hb : Text.IsBoundary text byte) :
    (encoding.measureSpan text s).contains (encoding.unitsBefore text byte) = s.contains byte := by
  rw [Bool.eq_iff_iff, Span.contains_iff, Span.contains_iff]
  simp only [measureSpan, encoding.unitsBefore_le_iff hs.1 hb, encoding.unitsBefore_lt_iff hb hs.2]

end OffsetEncoding

end StatementOutline
