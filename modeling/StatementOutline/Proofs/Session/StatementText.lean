import StatementOutline.Proofs.Session.Run
import StatementOutline.Proofs.Session.UnitIndependence

/-!
# The text of a statement

A statement has its place twice, in bytes for its text and in the unit for callers. Where a grammar
lists its rows forward and on boundaries, the two do not drift apart (`textOf_measures`): the text
of the document falls in three, what stands before a statement, the statement and the rest, and the
lengths of these parts are its bytes in the one unit and its span in the other. The bytes of a
statement are those of a row (`Document.forall_bytes`), and a cut in bytes measures alike in every
unit (`Text.exists_cut`, `OffsetEncoding.measureSpan_cut`).
-/

namespace StatementOutline

/-! ## A text cut in three -/

theorem OffsetEncoding.measure_append (encoding : OffsetEncoding) (a b : String) :
    encoding.measure (a ++ b) = encoding.measure a + encoding.measure b := by
  simp only [measure_eq_units, String.toList_append, units_append]

theorem OffsetEncoding.unitsBefore_append (encoding : OffsetEncoding) (before after : String) :
    encoding.unitsBefore (before ++ after) before.utf8ByteSize = encoding.measure before := by
  rw [utf8ByteSize_eq_byteLength, encoding.unitsBefore_byteLength String.toList_append,
    encoding.measure_eq_units]

/-- A stretch that runs forward between boundaries cuts the text in three, and its slice is the
part in the middle. -/
theorem Text.exists_cut {text : String} {bytes : Span} (hbytes : Text.AtBoundaries text bytes)
    (hforward : bytes.start ≤ bytes.stop) :
    ∃ before own after : String, text = before ++ own ++ after ∧
      before.utf8ByteSize = bytes.start ∧ (before ++ own).utf8ByteSize = bytes.stop ∧
      Text.slice? text bytes.start bytes.stop = some own := by
  obtain ⟨left, mid, right, htext, hstart, hstop⟩ := hbytes.1.exists_between hbytes.2 hforward
  refine ⟨String.ofList left, String.ofList mid, String.ofList right, ?_, ?_, ?_, ?_⟩
  · rw [← String.ofList_append, ← String.ofList_append, List.append_assoc, ← htext,
      String.ofList_toList]
  · rw [utf8ByteSize_eq_byteLength, String.toList_ofList, hstart]
  · rw [← String.ofList_append, utf8ByteSize_eq_byteLength, String.toList_ofList, hstop]
  · rw [← hstart, ← hstop]
    exact Text.slice?_of_append htext

/-- A span that cuts a text in three begins behind what the first part measures and is as long as
the second. -/
theorem OffsetEncoding.measureSpan_cut (encoding : OffsetEncoding) {bytes : Span}
    {before own : String} (after : String) (hstart : before.utf8ByteSize = bytes.start)
    (hstop : (before ++ own).utf8ByteSize = bytes.stop) :
    encoding.measureSpan (before ++ own ++ after) bytes =
      ⟨encoding.measure before, encoding.measure before + encoding.measure own⟩ := by
  rw [measureSpan, ← hstart, ← hstop, encoding.unitsBefore_append, encoding.measure_append,
    String.append_assoc, encoding.unitsBefore_append]

/-! ## Statements and rows -/

namespace Document

variable {d : Document}

/-- What holds of the bytes of every row holds of the bytes of every statement. -/
theorem forall_bytes {p : Span → Prop} (hrows : ∀ row ∈ d.rows, p row.bytes) {i : Nat}
    (hi : i < d.forest.size) : p (d.forest.node i).bytes := by
  obtain ⟨hshows, -⟩ := d.exists_shows_forest
  obtain ⟨x, hx, hselected⟩ := hshows.exists_node hi
  obtain ⟨row, hrow, parent, hnode⟩ := SyntaxTree.exists_row_of_lt hselected.1.1.1
  have hbytes : (d.forest.node i).bytes = row.bytes :=
    (hshows.bytes_eq hx).trans (congrArg SyntaxNode.bytes hnode)
  rw [hbytes]
  exact hrows row hrow

/-- Every statement cuts the text in three, and the middle part is its own text. -/
theorem exists_cut (hrows : ∀ row ∈ d.rows,
      Text.AtBoundaries d.text row.bytes ∧ row.bytes.start ≤ row.bytes.stop) {i : Nat}
    (hi : i < d.forest.size) :
    ∃ before own after : String, d.text = before ++ own ++ after ∧
      before.utf8ByteSize = (d.forest.node i).bytes.start ∧
      (before ++ own).utf8ByteSize = (d.forest.node i).bytes.stop ∧
      Text.slice? d.text (d.forest.node i).bytes.start (d.forest.node i).bytes.stop = some own ∧
      (d.forest.node i).span = ⟨d.settings.offsetEncoding.measure before,
        d.settings.offsetEncoding.measure before + d.settings.offsetEncoding.measure own⟩ := by
  obtain ⟨hbytes, hforward⟩ := forall_bytes
    (p := fun bytes => Text.AtBoundaries d.text bytes ∧ bytes.start ≤ bytes.stop) hrows hi
  obtain ⟨before, own, after, htext, hstart, hstop, hslice⟩ := Text.exists_cut hbytes hforward
  refine ⟨before, own, after, htext, hstart, hstop, hslice, ?_⟩
  have hspan := (forest_measured (fun row hrow => (hrows row hrow).1) i).2
  rw [hspan, htext, OffsetEncoding.measureSpan_cut _ after hstart hstop]

/-- In a supported language a document can be made for the ranges that run forwards and end within
the text. -/
theorem exists_make_iff {languageId text : String} {language : Language} {rows : List SyntaxRow}
    {range : Span} {settings : Settings} (hlang : Language.ofId? languageId = some language) :
    (∃ d, make languageId text rows range settings = .ok d) ↔
      range.start ≤ range.stop ∧ range.stop ≤ settings.offsetEncoding.measure text := by
  constructor
  · rintro ⟨d, hd⟩
    simp only [make, hlang] at hd
    split at hd
    · next hvalid => exact hvalid
    · cases hd
  · rintro ⟨hforward, hinside⟩
    exact ⟨_, make_eq_ok hlang hforward hinside⟩

end Document

namespace Session

variable {s : Session} {d : Document}

theorem Sound.outline_of_lt (h : Sound d s) {i : Nat} (hi : i < s.outline.size) :
    s.outline = d.forest := by
  cases hd : s.disposed with
  | true =>
    rw [(outline_of_disposed hd).2] at hi
    cases hi
  | false =>
    rcases h.outline_of_live hd with ⟨-, hempty⟩ | ⟨-, hforest⟩
    · rw [hempty] at hi
      cases hi
    · exact hforest

/-- **The text of a statement is what its offsets say.** In a supported language and over a range
inside the text, a document is made, and its length is the one that ranges are held against. Let its
rows run forward on boundaries of the text. Then every build succeeds, and whatever steps follow it,
each statement that the session shows has a text, which stands in the document at the bytes of the
statement. In the unit, the text in front is as long as the span says where it starts, the text
itself as long as the span, and the span ends inside the document. -/
theorem textOf_measures (languageId text : String) (rows : List SyntaxRow) (range : Span)
    (settings : Settings) {language : Language}
    (hlang : Language.ofId? languageId = some language) (hforward : range.start ≤ range.stop)
    (hinside : range.stop ≤ settings.offsetEncoding.measure text)
    (hrows : ∀ row ∈ rows,
      Text.AtBoundaries text row.bytes ∧ row.bytes.start ≤ row.bytes.stop) :
    ∃ d, Document.make languageId text rows range settings = .ok d ∧
      d.length = settings.offsetEncoding.measure text ∧
      (∀ other, (∃ d', Document.make languageId text rows other settings = .ok d') ↔
        other.start ≤ other.stop ∧ other.stop ≤ d.length) ∧
      ∀ route, ((start d).1.build route).result = .ok () ∧
        ((start d).1.build route).session.isBuilt = true ∧
        ∀ steps s replies, ((start d).1.build route).session.run steps = (s, replies) →
          ∀ i < s.outline.size, ∃ before own after : String,
            text = before ++ own ++ after ∧
            before.utf8ByteSize = (s.outline.node i).bytes.start ∧
            (before ++ own).utf8ByteSize = (s.outline.node i).bytes.stop ∧
            s.textOf i = some own ∧
            settings.offsetEncoding.measure before = (s.outline.node i).span.start ∧
            settings.offsetEncoding.measure own =
              (s.outline.node i).span.stop - (s.outline.node i).span.start ∧
            (s.outline.node i).span.start ≤ (s.outline.node i).span.stop ∧
            (s.outline.node i).span.stop ≤ d.length := by
  let d : Document := ⟨language, text, rows, range, settings⟩
  refine ⟨d, Document.make_eq_ok hlang hforward hinside, rfl,
    fun other => Document.exists_make_iff hlang, fun route => ?_⟩
  obtain ⟨hresult, hbuilt, -⟩ := (sound_start d).build_of_live rfl route
  refine ⟨hresult, hbuilt, fun steps s replies hrun i hi => ?_⟩
  have hsound : Sound d s := by
    have hs : s = ((start d).1.run (.build route :: steps)).1 := (congrArg Prod.fst hrun).symm
    exact hs ▸ (sound_start d).run (.build route :: steps)
  have houtline := hsound.outline_of_lt hi
  rw [houtline] at hi
  obtain ⟨before, own, after, htext, hstart, hstop, hslice, hspan⟩ :=
    Document.exists_cut (d := d) hrows hi
  have hlength : d.length = _ := congrArg settings.offsetEncoding.measure htext
  rw [settings.offsetEncoding.measure_append, settings.offsetEncoding.measure_append] at hlength
  refine ⟨before, own, after, htext, ?_⟩
  rw [textOf, hsound.document_eq, houtline, hspan, hlength]
  exact ⟨hstart, hstop, hslice, rfl, (Nat.add_sub_cancel_left _ _).symm, Nat.le_add_right _ _,
    Nat.le_add_right _ _⟩

/-- The whole of the text, in UTF-16 units. -/
def smileyDocument : Document :=
  ⟨.javaScript, smileyText, smileyRows, ⟨0, 8⟩, { offsetEncoding := .utf16 }⟩

theorem textOf_measures_smiley :
    (∀ row ∈ smileyRows,
      Text.AtBoundaries smileyText row.bytes ∧ row.bytes.start ≤ row.bytes.stop) ∧
    Document.make "javascript" smileyText smileyRows ⟨0, 8⟩ { offsetEncoding := .utf16 } =
      .ok smileyDocument ∧
    ((start smileyDocument).1.build .blocking).session.outline.node 1 =
      ⟨"expression_statement", ⟨6, 8⟩, ⟨8, 10⟩, false, none, #[]⟩ ∧
    ∃ before own after : String, smileyText = before ++ own ++ after ∧
      before.utf8ByteSize = 8 ∧ OffsetEncoding.utf16.measure before = 6 ∧
      ((start smileyDocument).1.build .blocking).session.textOf 1 = some own ∧
      OffsetEncoding.utf16.measure own = 8 - 6 := by
  have hrows : ∀ row ∈ smileyRows,
      Text.AtBoundaries smileyText row.bytes ∧ row.bytes.start ≤ row.bytes.stop := by decide
  have hlang : Language.ofId? "javascript" = some .javaScript := rfl
  have hmake : Document.make "javascript" smileyText smileyRows ⟨0, 8⟩
      { offsetEncoding := .utf16 } = .ok smileyDocument := by decide
  have hnode : ((start smileyDocument).1.build .blocking).session.outline.node 1 =
      ⟨"expression_statement", ⟨6, 8⟩, ⟨8, 10⟩, false, none, #[]⟩ := by decide +kernel
  obtain ⟨d, hd, -, -, hbuild⟩ := textOf_measures "javascript" smileyText smileyRows ⟨0, 8⟩
    { offsetEncoding := .utf16 } hlang (by decide) (by decide) hrows
  rw [hmake] at hd
  cases hd
  obtain ⟨-, -, hrun⟩ := hbuild .blocking
  obtain ⟨before, own, after, htext, hstart, -, htextOf, hbefore, hown, -⟩ :=
    hrun [] _ [] rfl 1 (by decide +kernel)
  rw [hnode] at hstart hbefore hown
  exact ⟨hrows, hmake, hnode, before, own, after, htext, hstart, hbefore, htextOf, hown⟩

end Session

end StatementOutline
