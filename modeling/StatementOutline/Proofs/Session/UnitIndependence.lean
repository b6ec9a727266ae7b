import StatementOutline.Proofs.Outline.Likeness
import StatementOutline.Proofs.Session.Build

/-!
# The unit of offsets does not matter

Take one text with one listing, and a stretch of it between two boundaries. Sessions that differ in
their settings, each given the stretch in its own unit, are all created and built, and show the same
outline but for the spans, which measure the same bytes (`outline_eq_in_units`). Nothing is asked of
the listing but that its rows stand between boundaries: not that they are nested, or in order.
-/

namespace StatementOutline

namespace Document

variable {d d₁ d₂ : Document}

theorem exists_shows_forest (d : Document) :
    (d.reduction .never).Shows (d.reduction .never).selection d.forest ∧ d.forest.Linked := by
  obtain ⟨o, ho, hshows, hlinked⟩ := Reduction.exists_outline (r := d.reduction .never) rfl
  rw [outline_reduction] at ho
  cases ho
  exact ⟨hshows, hlinked⟩

theorem tree_measured (hrows : ∀ row ∈ d.rows, Text.AtBoundaries d.text row.bytes) :
    d.tree.Measured d.settings.offsetEncoding d.text :=
  SyntaxTree.ofRows_measured _ hrows

/-- The nodes in scope of a range given in the unit are those in scope of its bytes. -/
theorem inScope_reduction {bytes : Span}
    (hrows : ∀ row ∈ d.rows, Text.AtBoundaries d.text row.bytes)
    (hbytes : Text.AtBoundaries d.text bytes)
    (hrange : d.range = d.settings.offsetEncoding.measureSpan d.text bytes) (i : Nat) :
    (d.reduction .never).inScope i = (d.tree.node i).bytes.inScope bytes := by
  obtain ⟨hnode, hspan⟩ := tree_measured hrows i
  show (d.tree.node i).span.inScope d.range = _
  rw [hspan, hrange, OffsetEncoding.inScope_measureSpan _ hnode hbytes]

/-- Documents that differ in the unit only, with ranges that measure the same bytes, have forests
that are alike. -/
theorem forest_alike {bytes : Span} (hlanguage : d₁.language = d₂.language)
    (htext : d₁.text = d₂.text) (hlisting : d₁.rows = d₂.rows)
    (hrows : ∀ row ∈ d₁.rows, Text.AtBoundaries d₁.text row.bytes)
    (hbytes : Text.AtBoundaries d₁.text bytes)
    (hrange₁ : d₁.range = d₁.settings.offsetEncoding.measureSpan d₁.text bytes)
    (hrange₂ : d₂.range = d₂.settings.offsetEncoding.measureSpan d₂.text bytes) :
    d₁.forest.Alike d₂.forest := by
  have hrows₂ : ∀ row ∈ d₂.rows, Text.AtBoundaries d₂.text row.bytes := by
    rwa [← htext, ← hlisting]
  have htree : d₁.tree.Alike d₂.tree := by
    unfold tree
    rw [← hlisting]
    exact SyntaxTree.ofRows_alike _ _ _
  have halike : (d₁.reduction .never).Alike (d₂.reduction .never) := by
    refine ⟨congrArg Language.rules hlanguage, htree, fun i => ?_⟩
    rw [inScope_reduction hrows hbytes hrange₁, inScope_reduction hrows₂ (htext ▸ hbytes) hrange₂,
      htree.bytes_eq]
  obtain ⟨hshows₁, hlinked₁⟩ := d₁.exists_shows_forest
  obtain ⟨hshows₂, hlinked₂⟩ := d₂.exists_shows_forest
  exact halike.outline hshows₁ hshows₂ hlinked₁ hlinked₂

theorem forest_measured (hrows : ∀ row ∈ d.rows, Text.AtBoundaries d.text row.bytes) :
    d.forest.Measured d.settings.offsetEncoding d.text :=
  d.exists_shows_forest.1.measured (tree_measured hrows)

end Document

/-- A stretch of a text has a valid range for a measure. -/
theorem OffsetEncoding.measureSpan_valid (encoding : OffsetEncoding) {text : String} {bytes : Span}
    (hbytes : Text.AtBoundaries text bytes) (hforward : bytes.start ≤ bytes.stop)
    (hinside : bytes.stop ≤ text.utf8ByteSize) :
    (encoding.measureSpan text bytes).start ≤ (encoding.measureSpan text bytes).stop ∧
      (encoding.measureSpan text bytes).stop ≤ encoding.measure text := by
  refine ⟨(encoding.unitsBefore_le_iff hbytes.1 hbytes.2).2 hforward, ?_⟩
  rw [← encoding.unitsBefore_utf8ByteSize]
  exact (encoding.unitsBefore_le_iff hbytes.2 (Text.isBoundary_utf8ByteSize text)).2 hinside

namespace Session

theorem build_start (d : Document) (route : BuildRoute) :
    ((start d).1.build route).result = .ok () ∧
      ((start d).1.build route).session.outline = d.forest := by
  obtain ⟨hresult, hbuilt, hlive⟩ :=
    build_of_live (s := (start d).1) rfl (fun o ho => by cases ho) route
  exact ⟨hresult, (outline_of_built hlive hbuilt).2⟩

/-- **The unit of offsets does not matter.** Given one stretch of a text in its own unit each, two
sessions on the text in a supported language are created and built. They show the same statements
under the same ids, with spans that measure the bytes in the unit of the session, and at one
boundary of the text lookups in both find the same id. -/
theorem outline_eq_in_units (languageId text : String) (rows : List SyntaxRow)
    (settings₁ settings₂ : Settings) (route₁ route₂ : BuildRoute) {language : Language}
    (hlang : Language.ofId? languageId = some language) {b₁ b₂ : Nat}
    (h₁ : Text.IsBoundary text b₁) (h₂ : Text.IsBoundary text b₂) (hforward : b₁ ≤ b₂)
    (hinside : b₂ ≤ text.utf8ByteSize) (hrows : ∀ row ∈ rows, Text.AtBoundaries text row.bytes) :
    ∃ d₁ d₂ o₁ o₂,
      Document.make languageId text rows
        (settings₁.offsetEncoding.measureSpan text ⟨b₁, b₂⟩) settings₁ = .ok d₁ ∧
      Document.make languageId text rows
        (settings₂.offsetEncoding.measureSpan text ⟨b₁, b₂⟩) settings₂ = .ok d₂ ∧
      (((start d₁).1.build route₁).result = .ok () ∧
        ((start d₁).1.build route₁).session.outline = o₁) ∧
      (((start d₂).1.build route₂).result = .ok () ∧
        ((start d₂).1.build route₂).session.outline = o₂) ∧
      o₁.Alike o₂ ∧ o₁.Measured settings₁.offsetEncoding text ∧
      o₂.Measured settings₂.offsetEncoding text ∧
      ∀ b, Text.IsBoundary text b →
        o₁.locate (settings₁.offsetEncoding.unitsBefore text b) =
          o₂.locate (settings₂.offsetEncoding.unitsBefore text b) := by
  have hbytes : Text.AtBoundaries text ⟨b₁, b₂⟩ := ⟨h₁, h₂⟩
  have hmake : ∀ settings : Settings, Document.make languageId text rows
      (settings.offsetEncoding.measureSpan text ⟨b₁, b₂⟩) settings =
        .ok ⟨language, text, rows, settings.offsetEncoding.measureSpan text ⟨b₁, b₂⟩,
          settings⟩ := by
    intro settings
    obtain ⟨hstart, hstop⟩ :=
      settings.offsetEncoding.measureSpan_valid hbytes hforward hinside
    exact Document.make_eq_ok hlang hstart hstop
  let d : Settings → Document := fun settings =>
    ⟨language, text, rows, settings.offsetEncoding.measureSpan text ⟨b₁, b₂⟩, settings⟩
  have halike : (d settings₁).forest.Alike (d settings₂).forest :=
    Document.forest_alike rfl rfl rfl hrows hbytes rfl rfl
  have hmeasured : ∀ settings, (d settings).forest.Measured settings.offsetEncoding text :=
    fun settings => Document.forest_measured (d := d settings) hrows
  exact ⟨d settings₁, d settings₂, (d settings₁).forest, (d settings₂).forest, hmake settings₁,
    hmake settings₂, build_start _ route₁, build_start _ route₂, halike, hmeasured settings₁,
    hmeasured settings₂,
    fun b hb => halike.locate_eq (hmeasured settings₁) (hmeasured settings₂) hb⟩

/-- Two statements, the first with a character that no two units measure alike. -/
def smileyText : String :=
  "\"😀\"; t;"

def smileyRows : List SyntaxRow :=
  [⟨0, true, "program", none, ⟨0, 10⟩, ⟨0, 0⟩⟩,
    ⟨1, true, "expression_statement", none, ⟨0, 7⟩, ⟨0, 0⟩⟩,
    ⟨2, true, "string", none, ⟨0, 6⟩, ⟨0, 0⟩⟩,
    ⟨2, false, ";", none, ⟨6, 7⟩, ⟨0, 0⟩⟩,
    ⟨1, true, "expression_statement", none, ⟨8, 10⟩, ⟨0, 0⟩⟩,
    ⟨2, true, "identifier", none, ⟨8, 9⟩, ⟨0, 0⟩⟩,
    ⟨2, false, ";", none, ⟨9, 10⟩, ⟨0, 0⟩⟩]

/-- The document of the second statement alone, in a unit. -/
def smileyTail (encoding : OffsetEncoding) : Document :=
  ⟨.javaScript, smileyText, smileyRows, encoding.measureSpan smileyText ⟨8, 10⟩,
    { offsetEncoding := encoding }⟩

/-- The second statement alone, at its offsets. -/
def smileyTailOutline (span : Span) : Outline :=
  ⟨#[⟨"expression_statement", span, ⟨8, 10⟩, false, none, #[]⟩], #[0]⟩

theorem outline_eq_in_units_smiley :
    (∀ row ∈ smileyRows, Text.AtBoundaries smileyText row.bytes) ∧
    OffsetEncoding.char.measureSpan smileyText ⟨8, 10⟩ = ⟨5, 7⟩ ∧
    OffsetEncoding.utf16.measureSpan smileyText ⟨8, 10⟩ = ⟨6, 8⟩ ∧
    Document.make "javascript" smileyText smileyRows ⟨5, 7⟩ {} = .ok (smileyTail .char) ∧
    Document.make "javascript" smileyText smileyRows ⟨6, 8⟩ { offsetEncoding := .utf16 } =
      .ok (smileyTail .utf16) ∧
    ((start (smileyTail .char)).1.build .awaited).session.outline = smileyTailOutline ⟨5, 7⟩ ∧
    ((start (smileyTail .utf16)).1.build .blocking).session.outline = smileyTailOutline ⟨6, 8⟩ ∧
    (smileyTailOutline ⟨5, 7⟩).Alike (smileyTailOutline ⟨6, 8⟩) ∧
    (smileyTailOutline ⟨5, 7⟩).locate 5 = some 0 ∧
    (smileyTailOutline ⟨5, 7⟩).locate 5 = (smileyTailOutline ⟨6, 8⟩).locate 6 := by
  have hrows : ∀ row ∈ smileyRows, Text.AtBoundaries smileyText row.bytes := by decide
  have hchar : OffsetEncoding.char.measureSpan smileyText ⟨8, 10⟩ = ⟨5, 7⟩ := by decide
  have hutf16 : OffsetEncoding.utf16.measureSpan smileyText ⟨8, 10⟩ = ⟨6, 8⟩ := by decide
  have hlang : Language.ofId? "javascript" = some .javaScript := rfl
  have hstart : Text.IsBoundary smileyText 8 := by decide
  have hstop : Text.IsBoundary smileyText 10 := by decide
  have hbuilt : ((start (smileyTail .char)).1.build .awaited).session.outline =
      smileyTailOutline ⟨5, 7⟩ := by decide +kernel
  have hbuilt' : ((start (smileyTail .utf16)).1.build .blocking).session.outline =
      smileyTailOutline ⟨6, 8⟩ := by decide +kernel
  obtain ⟨d₁, d₂, o₁, o₂, hd₁, hd₂, ⟨-, rfl⟩, ⟨-, rfl⟩, halike, -, -, hlocate⟩ :=
    outline_eq_in_units "javascript" smileyText smileyRows {} { offsetEncoding := .utf16 }
      .awaited .blocking hlang hstart hstop (by decide) (by decide) hrows
  obtain rfl : smileyTail .char = d₁ := Except.ok.inj hd₁
  obtain rfl : smileyTail .utf16 = d₂ := Except.ok.inj hd₂
  rw [hbuilt, hbuilt'] at halike hlocate
  exact ⟨hrows, hchar, hutf16, hchar ▸ hd₁, hutf16 ▸ hd₂, hbuilt, hbuilt', halike,
    by decide +kernel, hlocate 8 hstart⟩

end Session

end StatementOutline
