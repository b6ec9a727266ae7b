import StatementOutline.Proofs.Toml.Scalar
import StatementOutline.Toml.Document

/-!
# Documents of one section

A document that has nothing but a header and assignments of scalars below it reads as one table,
whose entries are the assignments in their order. It does not matter how its lines are broken, nor
whether the last one is. `ReadsSections` says so of any reader of TOML, and `readsSections_read?` is
the proof for `read?`.
-/

namespace StatementOutline.Toml

variable {cs rest after tail : List Char} {line : Line} {name key : String} {value : Value}

/-! ## Lines -/

theorem LineEnd.endLine?_eq (h : LineEnd rest after) : endLine? rest = some after := by
  cases h <;> rfl

theorem LineEnd.length_le (h : LineEnd rest after) : after.length ≤ rest.length := by
  cases h <;> simp only [List.length_nil, List.length_cons] <;> omega

/-- The characters are one line of a document, whatever comes on the lines behind. -/
structure Legible (cs : List Char) (line : Line) : Prop where
  ne_nil : cs ≠ []
  readLine?_eq : ∀ {rest after}, LineEnd rest after → readLine? (cs ++ rest) = some (line, after)

/-- A legible line is read first, and then the lines behind it. -/
theorem Legible.readLines?_append (h : Legible cs line) (hend : LineEnd rest after) :
    readLines? (cs ++ rest) = (readLines? after).map (line :: ·) := by
  have hshorter : after.length < (cs ++ rest).length := by
    have hpos := List.length_pos_iff.2 h.ne_nil
    have hle := hend.length_le
    rw [List.length_append]
    omega
  have hne : ¬ (cs ++ rest).isEmpty := by simp [h.ne_nil]
  rw [readLines?, if_neg hne, h.readLine?_eq hend]
  exact if_pos hshorter

/-- Lines are read one after the other, with any line break between them. -/
theorem readLines?_intercalate {newline : List Char}
    (hbreak : ∀ after, LineEnd (newline ++ after) after) (htail : LineEnd tail [])
    {lines : List (List Char × Line)} (hne : lines ≠ []) (h : ∀ p ∈ lines, Legible p.1 p.2) :
    readLines? (newline.intercalate (lines.map Prod.fst) ++ tail) = some (lines.map Prod.snd) := by
  induction lines with
  | nil => contradiction
  | cons p lines ih =>
    obtain ⟨hp, hlines⟩ := List.forall_mem_cons.1 h
    cases lines with
    | nil =>
      rw [List.map_singleton, List.intercalate_singleton, hp.readLines?_append htail]
      simp [readLines?]
    | cons q lines =>
      rw [List.map_cons, List.map_cons, List.intercalate_cons_cons, List.append_assoc,
        List.append_assoc, hp.readLines?_append (hbreak _), ← List.map_cons (f := Prod.fst),
        ih (List.cons_ne_nil q lines) hlines]
      rfl

/-- The key can stand without quotes. -/
structure BareKey (key : String) : Prop where
  ne_nil : key.toList ≠ []
  all_isKeyChar : key.toList.all isKeyChar = true

theorem BareKey.exists_cons (h : BareKey key) :
    ∃ c cs, key.toList = c :: cs ∧ isKeyChar c = true := by
  obtain ⟨c, cs, hkey⟩ := List.exists_cons_of_ne_nil h.ne_nil
  exact ⟨c, cs, hkey, List.all_eq_true.1 h.all_isKeyChar c (hkey ▸ List.mem_cons_self)⟩

theorem BareKey.skipBlanks_eq (h : BareKey key) (rest : List Char) :
    skipBlanks (key.toList ++ rest) = key.toList ++ rest := by
  obtain ⟨c, cs, hkey, hc⟩ := h.exists_cons
  have hblank : c ≠ ' ' ∧ c ≠ '\t' := by
    refine ⟨?_, ?_⟩ <;> rintro rfl <;> cases hc
  rw [hkey]
  exact skipBlanks_cons hblank

theorem BareKey.readKeyPart?_eq (h : BareKey key) {c : Char} (hc : isKeyChar c = false) :
    readKeyPart? (key.toList ++ c :: rest) = some (key, c :: rest) := by
  have hspan : (key.toList ++ c :: rest).span isKeyChar = (key.toList, c :: rest) :=
    span_append (List.all_eq_true.1 h.all_isKeyChar) (by simpa using hc)
  obtain ⟨d, cs, hkey, hd⟩ := h.exists_cons
  rw [hkey] at hspan ⊢
  unfold readKeyPart?
  split
  · next hquote =>
    cases hquote
    cases hd
  · next hquote =>
    cases hquote
    cases hd
  · rw [hspan, ← String.ofList_toList (s := key), hkey]

/-- A key without quotes is read up to the first character that is not its own and no dot. -/
theorem BareKey.readKey?_eq (h : BareKey key) {c d : Char} (hc : isKeyChar c = false)
    (hrest : skipBlanks (c :: rest) = d :: after) (hd : d ≠ '.') :
    readKey? (key.toList ++ c :: rest) = some (⟨[], key⟩, d :: after) := by
  have hparts : readParts? (key.toList ++ c :: rest) = some (⟨[], key⟩, d :: after) := by
    rw [readParts?, h.readKeyPart?_eq hc]
    simp only [hrest]
    split
    · next hdot =>
      cases hdot
      contradiction
    · rfl
  rw [readKey?, hparts]
  rfl

theorem readLine?_of_readContent? (hskip : skipBlanks cs = cs)
    (hcontent : readContent? cs = some (line, rest)) (hend : LineEnd rest after) :
    readLine? cs = some (line, after) := by
  simp [readLine?, hskip, hcontent, hend.endLine?_eq]

theorem legible_header (h : BareKey name) :
    Legible ("[" ++ name ++ "]").toList (.header ⟨[], name⟩) where
  ne_nil := by simp
  readLine?_eq {rest after} hend := by
    have hchars : ("[" ++ name ++ "]").toList ++ rest = '[' :: (name.toList ++ ']' :: rest) := by
      simp
    have hkey : readKey? (skipBlanks (name.toList ++ ']' :: rest)) =
        some (⟨[], name⟩, ']' :: rest) := by
      rw [h.skipBlanks_eq]
      exact h.readKey?_eq rfl rfl (by decide)
    rw [hchars]
    refine readLine?_of_readContent? rfl ?_ hend
    obtain ⟨c, cs, hname, hc⟩ := h.exists_cons
    have hsingle : c ≠ '[' := by
      rintro rfl
      cases hc
    rw [hname, List.cons_append] at hkey ⊢
    simp [readContent?, hsingle, hkey]

/-- A key with a scalar, and what is written for the scalar. -/
structure Assignment where
  key : String
  written : String
  value : Value

namespace Assignment

variable {a : Assignment}

/-- How the assignment is written. -/
def text (a : Assignment) : String :=
  a.key ++ " = " ++ a.written

/-- How the assignment is read. -/
def asLine (a : Assignment) : Line :=
  .assign ⟨[], a.key⟩ a.value

/-- What the assignment adds to a table. -/
def entry (a : Assignment) : String × Value :=
  (a.key, a.value)

/-- The key needs no quotes, and what is written is the value. -/
structure WellWritten (a : Assignment) : Prop where
  bareKey : BareKey a.key
  scalar : Scalar a.written a.value

theorem WellWritten.readAssign?_eq (h : a.WellWritten) (hend : LineEnd rest after) :
    readAssign? (some <| skipBlanks ·) (readValue? maxDepth) (a.text.toList ++ rest) =
      some ((⟨[], a.key⟩, a.value), rest) := by
  have hchars : a.text.toList ++ rest =
      a.key.toList ++ ' ' :: '=' :: ' ' :: (a.written.toList ++ rest) := by
    simp [text]
  have hkey : readKey? (a.text.toList ++ rest) =
      some (⟨[], a.key⟩, '=' :: ' ' :: (a.written.toList ++ rest)) := by
    rw [hchars]
    exact h.bareKey.readKey?_eq rfl rfl (by decide)
  have hequals : skipBlanks ('=' :: ' ' :: (a.written.toList ++ rest)) =
      '=' :: ' ' :: (a.written.toList ++ rest) := rfl
  have hblank : skipBlanks (' ' :: (a.written.toList ++ rest)) = a.written.toList ++ rest :=
    h.scalar.spells.skipBlanks_eq rest
  simp [readAssign?, hkey, hequals, hblank, h.scalar.spells.readValue?_eq hend]

/-- An assignment is a line, whatever scalar it assigns. -/
theorem WellWritten.legible (h : a.WellWritten) : Legible a.text.toList a.asLine where
  ne_nil := by simp [text]
  readLine?_eq {rest after} hend := by
    have hassign := h.readAssign?_eq hend
    obtain ⟨c, cs, hkey, hc⟩ := h.bareKey.exists_cons
    have hother : c ≠ '[' ∧ c ≠ '#' ∧ c ≠ '\n' ∧ c ≠ '\r' := by
      refine ⟨?_, ?_, ?_, ?_⟩ <;> rintro rfl <;> cases hc
    obtain ⟨tail, htail⟩ : ∃ tail, a.text.toList ++ rest = a.key.toList ++ tail :=
      ⟨" = ".toList ++ a.written.toList ++ rest, by simp [text]⟩
    rw [htail] at hassign ⊢
    refine readLine?_of_readContent? (h.bareKey.skipBlanks_eq tail) ?_ hend
    rw [hkey, List.cons_append] at hassign ⊢
    simp [readContent?, hother, hassign, asLine]

end Assignment

/-! ## The table of a section -/

/-- A document under way that has one section so far. -/
def oneSection (name : String) (entries : Entries) : Draft :=
  ⟨[(name, .table .header entries)], [name]⟩

theorem Entries.value?_eq_none {entries : Entries} (h : key ∉ entries.map Prod.fst) :
    entries.value? key = none := by
  rw [value?, List.lookup_eq_none_iff]
  intro p hp
  have hne : key ≠ p.1 := fun hkey => h (hkey ▸ List.mem_map_of_mem hp)
  simpa using hne

/-- An assignment of a new key goes to the end of the section's table. -/
theorem add?_oneSection {entries : Entries} {a : Assignment}
    (hnew : a.key ∉ entries.map Prod.fst) :
    (oneSection name entries).add? a.asLine = some (oneSection name (entries ++ [a.entry])) := by
  have hsection : Entries.value? [(name, .table .header entries)] name =
      some (.table .header entries) := List.lookup_cons_self
  have hinsert : Entries.insertDotted? [] a.key a.value entries = some (entries ++ [a.entry]) := by
    rw [Entries.insertDotted?, Entries.insertNew?, Entries.value?_eq_none hnew]
    rfl
  simp [oneSection, Assignment.asLine, Draft.add?, Entries.updateAt?, hsection, hinsert,
    Entries.set]

/-- Assignments of different keys fill the section's table in their order. -/
theorem foldlM_oneSection {assignments : List Assignment} {entries : Entries}
    (hkeys : ((entries ++ assignments.map Assignment.entry).map Prod.fst).Nodup) :
    (assignments.map Assignment.asLine).foldlM Draft.add? (oneSection name entries) =
      some (oneSection name (entries ++ assignments.map Assignment.entry)) := by
  induction assignments generalizing entries with
  | nil => simp
  | cons a assignments ih =>
    have hnew : a.key ∉ entries.map Prod.fst := by
      rw [List.map_append, List.nodup_append] at hkeys
      exact fun hmem => hkeys.2.2 _ hmem _ List.mem_cons_self rfl
    rw [List.map_cons (f := Assignment.entry), List.append_cons] at hkeys ⊢
    rw [List.map_cons, List.foldlM_cons, add?_oneSection hnew]
    exact ih hkeys

/-- A reader of TOML takes a document with a header and, on the lines below, assignments of scalars
to different keys for one table that has the assignments as entries in their order. The last line
may be broken or not. -/
def ReadsSections (read? : String → Option Entries) : Prop :=
  ∀ {name newline tail : String} {assignments : List Assignment}, BareKey name →
    (newline = "\n" ∨ newline = "\r\n") → (tail = "" ∨ tail = newline) →
    (∀ a ∈ assignments, a.WellWritten) → (assignments.map Assignment.key).Nodup →
    read? (newline.intercalate (("[" ++ name ++ "]") :: assignments.map Assignment.text) ++ tail) =
      some [(name, .table .header (assignments.map Assignment.entry))]

theorem lineEnd_newline {newline : String} (h : newline = "\n" ∨ newline = "\r\n")
    (after : List Char) : LineEnd (newline.toList ++ after) after := by
  rcases h with rfl | rfl
  · exact .lineFeed after
  · exact .carriageReturn after

/-- The lines are read one by one, and each assignment is put at the end of the section's table. -/
theorem readsSections_read? : ReadsSections read? := by
  intro name newline tail assignments hname hnewline htail h hkeys
  have hbreak := lineEnd_newline hnewline
  have hend : LineEnd tail.toList [] := by
    rcases htail with rfl | rfl
    · exact .ofText
    · simpa using hbreak []
  let lines : List (List Char × Line) :=
    (("[" ++ name ++ "]").toList, .header ⟨[], name⟩) ::
      assignments.map fun a => (a.text.toList, a.asLine)
  have hlegible : ∀ p ∈ lines, Legible p.1 p.2 := by
    intro p hp
    rcases List.mem_cons.1 hp with rfl | hp
    · exact legible_header hname
    · obtain ⟨a, ha, rfl⟩ := List.mem_map.1 hp
      exact (h a ha).legible
  have htext : (newline.intercalate (("[" ++ name ++ "]") :: assignments.map Assignment.text) ++
      tail).toList = newline.toList.intercalate (lines.map Prod.fst) ++ tail.toList := by
    simp only [lines, String.toList_append, String.toList_intercalate, List.map_cons, List.map_map]
    rfl
  have hmark : dropMark (newline.toList.intercalate (lines.map Prod.fst) ++ tail.toList) =
      newline.toList.intercalate (lines.map Prod.fst) ++ tail.toList := by
    simp [lines, dropMark]
  have hread := readLines?_intercalate hbreak hend (List.cons_ne_nil _ _) hlegible
  have hlines : lines.map Prod.snd = .header ⟨[], name⟩ :: assignments.map Assignment.asLine := by
    simp [lines]
  have hopen : Draft.add? {} (.header ⟨[], name⟩) = some (oneSection name []) := rfl
  have hfold : (assignments.map Assignment.asLine).foldlM Draft.add? (oneSection name []) =
      some (oneSection name (assignments.map Assignment.entry)) :=
    foldlM_oneSection (by rwa [List.nil_append, List.map_map])
  rw [read?, htext, hmark, hread, hlines]
  simp only [Option.bind_eq_bind, Option.bind_some, List.foldlM_cons, hopen, hfold]
  rfl

end StatementOutline.Toml
