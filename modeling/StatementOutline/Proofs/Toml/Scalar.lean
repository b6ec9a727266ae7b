import Mathlib.Data.List.Basic
import Mathlib.Data.List.TakeDrop
import StatementOutline.Toml.Line

/-!
# Scalars at the end of a line

A scalar can be written without more ado (`Scalar`) as a text without escapes in quotes of either
kind, a truth value by its name, or a number by its decimal digits. What is written so is what
`readValue?` makes of it, if the line ends behind it (`Scalar.spells`); the digits of a number are
told apart from dates and times and from the other ways to write a number.
-/

namespace StatementOutline.Toml

variable {cs rest after : List Char} {c : Char} {n : Nat}

/-- The line ends here, and `after` is the text behind it. -/
inductive LineEnd : (rest after : List Char) → Prop
  | ofText : LineEnd [] []
  | lineFeed (after : List Char) : LineEnd ('\n' :: after) after
  | carriageReturn (after : List Char) : LineEnd ('\r' :: '\n' :: after) after

/-- The characters spell the value, whatever comes on the lines behind. -/
structure Spells (cs : List Char) (value : Value) : Prop where
  skipBlanks_eq : ∀ rest, skipBlanks (cs ++ rest) = cs ++ rest
  readValue?_eq : ∀ {rest after}, LineEnd rest after →
    readValue? maxDepth (cs ++ rest) = some (value, rest)

theorem skipBlanks_cons (h : c ≠ ' ' ∧ c ≠ '\t') : skipBlanks (c :: cs) = c :: cs := by
  simp [skipBlanks, h]

theorem span_append {p : Char → Bool} (h : ∀ c ∈ cs, p c = true)
    (hrest : ∀ c ∈ rest.head?, p c = false) : (cs ++ rest).span p = (cs, rest) := by
  have hstop : rest.takeWhile p = [] ∧ rest.dropWhile p = rest := by
    cases rest with
    | nil => exact ⟨rfl, rfl⟩
    | cons c rest => simp [hrest c rfl]
  rw [List.span_eq_takeWhile_dropWhile, List.takeWhile_append_of_pos h,
    List.dropWhile_append_of_pos h, hstop.1, hstop.2, List.append_nil]

theorem readValue?_of_quote (depth : Nat) (hc : c = '"' ∨ c = '\'') :
    readValue? depth (c :: cs) =
      (readString? (c :: cs)).map fun (text, rest) => (.string (String.ofList text), rest) := by
  rcases hc with rfl | rfl <;> cases depth <;> rfl

theorem readValue?_of_bare (depth : Nat) (hc : c ∉ ['[', '{', '"', '\'']) :
    readValue? depth (c :: cs) = readBare? (c :: cs) := by
  simp only [List.mem_cons, List.not_mem_nil, or_false, not_or] at hc
  obtain ⟨hbracket, hbrace, hbasic, hliteral⟩ := hc
  cases depth <;> simp [readValue?, hbracket, hbrace, hbasic, hliteral]

/-! ## Quoted text -/

theorem readBasic_append (h : ∀ c ∈ cs, isPlain c = true ∧ c ≠ '"' ∧ c ≠ '\\') (rest : List Char) :
    readBasic (cs ++ '"' :: rest) = some (cs, rest) := by
  induction cs with
  | nil => simp [readBasic]
  | cons c cs ih =>
    obtain ⟨⟨hplain, hquote, hescape⟩, hcs⟩ := List.forall_mem_cons.1 h
    rw [List.cons_append, readBasic, if_pos hplain, ih hcs]
    · rfl
    · exact hquote
    · exact hescape

theorem readLiteral_append (h : ∀ c ∈ cs, isPlain c = true ∧ c ≠ '\'') (rest : List Char) :
    readLiteral (cs ++ '\'' :: rest) = some (cs, rest) := by
  induction cs with
  | nil => simp [readLiteral]
  | cons c cs ih =>
    obtain ⟨⟨hplain, hquote⟩, hcs⟩ := List.forall_mem_cons.1 h
    rw [List.cons_append, readLiteral, if_pos hplain, ih hcs]
    · rfl
    · exact hquote

/-- A character that stands for itself in quotes of either kind. -/
def isUnescaped (c : Char) : Bool :=
  isPlain c && c != '"' && c != '\\' && c != '\''

theorem isUnescaped_iff :
    isUnescaped c = true ↔ isPlain c = true ∧ c ≠ '"' ∧ c ≠ '\\' ∧ c ≠ '\'' := by
  simp [isUnescaped, and_assoc]

/-- A text that needs no escapes, in quotes of either kind. -/
theorem spells_string (hne : cs ≠ []) (h : cs.all isUnescaped = true) (hc : c = '"' ∨ c = '\'') :
    Spells (c :: cs ++ [c]) (.string (String.ofList cs)) where
  skipBlanks_eq rest := by
    rcases hc with rfl | rfl <;> rfl
  readValue?_eq {rest after} _ := by
    have hplain := fun d hd => isUnescaped_iff.1 (List.all_eq_true.1 h d hd)
    have hread : readString? (c :: (cs ++ c :: rest)) = some (cs, rest) := by
      -- The text is not empty, so that its quotes are not taken for tripled ones.
      obtain ⟨d, ds, rfl⟩ := List.exists_cons_of_ne_nil hne
      obtain ⟨-, hbasic, -, hliteral⟩ := hplain d List.mem_cons_self
      rcases hc with rfl | rfl
      · rw [← readBasic_append fun d hd =>
          ⟨(hplain d hd).1, (hplain d hd).2.1, (hplain d hd).2.2.1⟩]
        simp [readString?, hbasic]
      · rw [← readLiteral_append fun d hd => ⟨(hplain d hd).1, (hplain d hd).2.2.2⟩]
        simp [readString?, hliteral]
    simp only [List.cons_append, List.append_assoc, List.nil_append]
    rw [readValue?_of_quote _ hc, hread]
    rfl

/-! ## Bare scalars -/

/-- A bare scalar ends with its line. -/
theorem splitBare_append (h : ∀ c ∈ cs, isBareChar c = true) (hend : LineEnd rest after) :
    splitBare (cs ++ rest) = (cs, rest) := by
  have hspan : (cs ++ rest).span isBareChar = (cs, rest) := by
    apply span_append h
    cases hend with
    | ofText => simp
    | lineFeed => simp [isBareChar]
    | carriageReturn => simp [isBareChar]
  simp only [splitBare, hspan]
  split
  · cases hend
  · rfl

/-- A character of a bare scalar with which no value of another kind begins. -/
def isScalarChar (c : Char) : Bool :=
  isBareChar c && !(['[', '{', '"', '\''].contains c)

theorem isScalarChar_iff :
    isScalarChar c = true ↔ isBareChar c = true ∧ c ∉ ['[', '{', '"', '\''] := by
  rw [isScalarChar, Bool.and_eq_true, Bool.not_eq_true', ← Bool.not_eq_true, List.contains_iff_mem]

theorem spells_of_bareValue? {value : Value} (hne : cs ≠ []) (h : cs.all isScalarChar = true)
    (hvalue : bareValue? cs = some value) : Spells cs value where
  skipBlanks_eq rest := by
    obtain ⟨c, cs, rfl⟩ := List.exists_cons_of_ne_nil hne
    have hc := List.all_eq_true.1 h c List.mem_cons_self
    have hblank : c ≠ ' ' ∧ c ≠ '\t' := by
      refine ⟨?_, ?_⟩ <;> rintro rfl <;> cases hc
    exact skipBlanks_cons hblank
  readValue?_eq {rest after} hend := by
    have hscalar := fun c hc => isScalarChar_iff.1 (List.all_eq_true.1 h c hc)
    have hsplit := splitBare_append (fun c hc => (hscalar c hc).1) hend
    obtain ⟨c, cs, rfl⟩ := List.exists_cons_of_ne_nil hne
    rw [List.cons_append, readValue?_of_bare _ (hscalar c List.mem_cons_self).2,
      ← List.cons_append, readBare?, hsplit]
    simp only [hvalue, Option.map_some]

theorem spells_bool (b : Bool) : Spells (toString b).toList (.boolean b) := by
  cases b <;> exact spells_of_bareValue? (by decide) rfl rfl

/-! ## Decimal numbers -/

theorem isDigit_of_mem_toDigits (h : c ∈ Nat.toDigits 10 n) : c.isDigit = true :=
  Nat.isDigit_of_mem_toDigits (by decide) (by decide) h

theorem not_mem_of_isDigit (h : ∀ c ∈ cs, c.isDigit = true) (hc : c.isDigit = false) : c ∉ cs := by
  intro hmem
  rw [h c hmem] at hc
  cases hc

theorem mem_of_twoDigits? (h : twoDigits? cs = some (n, rest)) (hc : c ∈ rest) : c ∈ cs := by
  unfold twoDigits? at h
  split at h
  · split at h
    · cases h
      exact List.mem_cons_of_mem _ (List.mem_cons_of_mem _ hc)
    · cases h
  · cases h

theorem readDate?_eq_none (h : '-' ∉ cs) : readDate? cs = none := by
  rw [Option.eq_none_iff_forall_ne_some]
  intro out hout
  simp only [readDate?, Option.bind_eq_bind, Option.bind_eq_some_iff] at hout
  obtain ⟨⟨century, inner⟩, hcentury, ⟨year, dash⟩, hyear, hout⟩ := hout
  dsimp only at hout
  split at hout
  · exact h (mem_of_twoDigits? hcentury (mem_of_twoDigits? hyear List.mem_cons_self))
  · cases hout

theorem readTime?_eq_none (h : ':' ∉ cs) : readTime? cs = none := by
  rw [Option.eq_none_iff_forall_ne_some]
  intro out hout
  simp only [readTime?, Option.bind_eq_bind, Option.bind_eq_some_iff] at hout
  obtain ⟨⟨hour, colon⟩, hhour, hout⟩ := hout
  dsimp only at hout
  split at hout
  · exact h (mem_of_twoDigits? hhour List.mem_cons_self)
  · cases hout

theorem ungroup_eq (hne : cs ≠ []) (h : ∀ c ∈ cs, c.isDigit = true) :
    ungroup Char.isDigit cs = some cs := by
  induction cs with
  | nil => contradiction
  | cons c cs ih =>
    obtain ⟨hc, hcs⟩ := List.forall_mem_cons.1 h
    cases cs with
    | nil => simp [ungroup, hc]
    | cons d cs =>
      rw [ungroup, if_pos hc, ih (List.cons_ne_nil d cs) hcs]
      · rfl
      · simp
      · rintro rest hd
        cases hd
        cases hcs '_' List.mem_cons_self

theorem hexDigit?_of_isDigit (h : c.isDigit = true) :
    hexDigit? c = some (c.toNat - '0'.toNat) := by
  obtain ⟨hlow, hhigh⟩ := Char.isDigit_iff_toNat.1 h
  exact if_pos ⟨hlow, hhigh⟩

theorem natOfDigits_toDigits (n : Nat) : natOfDigits 10 (Nat.toDigits 10 n) = n := by
  calc natOfDigits 10 (Nat.toDigits 10 n)
      = Nat.ofDigitChars 10 (Nat.toDigits 10 n) 0 := by
        apply List.foldl_ext
        intro k c hc
        rw [hexDigit?_of_isDigit (isDigit_of_mem_toDigits hc), Option.getD_some]
    _ = n := Nat.ofDigitChars_ten_toDigits

theorem head?_toDigits_ne (hn : 0 < n) : (Nat.toDigits 10 n).head? ≠ some '0' := by
  induction n using Nat.strongRecOn with
  | ind n ih =>
    rw [Nat.toDigits_eq_if (by decide)]
    split
    · simpa using Nat.ne_of_gt hn
    · next hten =>
      have hrest := ih (n / 10) (by omega) (by omega)
      rwa [List.head?_append_of_ne_nil _ Nat.toDigits_ne_nil]

theorem readWhole?_toDigits (n : Nat) :
    readWhole? (Nat.toDigits 10 n) = some (Nat.toDigits 10 n) := by
  have hungroup := ungroup_eq Nat.toDigits_ne_nil fun c => isDigit_of_mem_toDigits (n := n)
  rw [readWhole?, hungroup, Option.filter_eq_some_iff]
  refine ⟨rfl, ?_⟩
  rcases Nat.eq_zero_or_pos n with rfl | hn
  · rfl
  · simp [head?_toDigits_ne hn]

theorem readInteger?_of_isDigit (h : ∀ c ∈ cs, c.isDigit = true) : readInteger? cs =
    (readWhole? cs).map fun digits => integerValue (natOfDigits 10 digits) := by
  unfold readInteger?
  split
  · exact absurd (by simp) (not_mem_of_isDigit (c := 'x') h rfl)
  · exact absurd (by simp) (not_mem_of_isDigit (c := 'o') h rfl)
  · exact absurd (by simp) (not_mem_of_isDigit (c := 'b') h rfl)
  · have hsign : splitSign cs = (false, cs) := by
      unfold splitSign
      split
      · exact absurd (by simp) (not_mem_of_isDigit (c := '+') h rfl)
      · exact absurd (by simp) (not_mem_of_isDigit (c := '-') h rfl)
      · rfl
    rw [hsign]
    rfl

/-- The digits of a number are no truth value, no date and no time, and no float, so they are read
as that number. -/
theorem bareValue?_toDigits (hn : n < Nat.pow 2 128) :
    bareValue? (Nat.toDigits 10 n) = some (.integer n) := by
  have hdigits : ∀ c ∈ Nat.toDigits 10 n, c.isDigit = true := fun c => isDigit_of_mem_toDigits
  have hno : ∀ c, c.isDigit = false → c ∉ Nat.toDigits 10 n := fun c => not_mem_of_isDigit hdigits
  have htrue : Nat.toDigits 10 n ≠ ['t', 'r', 'u', 'e'] := fun h =>
    hno 't' rfl (h ▸ List.mem_cons_self)
  have hfalse : Nat.toDigits 10 n ≠ ['f', 'a', 'l', 's', 'e'] := fun h =>
    hno 'f' rfl (h ▸ List.mem_cons_self)
  -- Dates and times have separators that are not digits.
  have hdate : isDateTime (Nat.toDigits 10 n) = false := by
    rw [isDateTime, readDate?_eq_none (hno '-' rfl), readTime?_eq_none (hno ':' rfl)]
    rfl
  have hvalue : integerValue (n : Nat) = .integer n := by
    refine if_pos ⟨?_, Int.ofNat_lt.2 hn⟩
    exact Int.le_trans (Int.neg_nonpos_of_nonneg (Int.natCast_nonneg _)) (Int.natCast_nonneg n)
  rw [bareValue?, if_neg htrue, if_neg hfalse, hdate, readInteger?_of_isDigit hdigits,
    readWhole?_toDigits, Option.map_some, natOfDigits_toDigits, hvalue]
  rfl

theorem isScalarChar_of_isDigit (h : c.isDigit = true) : isScalarChar c = true := by
  have hnot : ∀ l : List Char, l.all (!·.isDigit) = true → c ∉ l := by
    intro l hl hcl
    have hc := List.all_eq_true.1 hl c hcl
    rw [h] at hc
    cases hc
  refine isScalarChar_iff.2 ⟨?_, hnot _ rfl⟩
  rw [isBareChar, Bool.not_eq_true', ← Bool.not_eq_true, List.contains_iff_mem]
  exact hnot _ rfl

/-- Decimal digits spell their number, if it is not too large to be taken. -/
theorem spells_nat (hn : n < Nat.pow 2 128) : Spells (toString n).toList (.integer n) := by
  have hscalar : (Nat.toDigits 10 n).all isScalarChar = true :=
    List.all_eq_true.2 fun c hc => isScalarChar_of_isDigit (isDigit_of_mem_toDigits hc)
  rw [Nat.toString_eq_repr, Nat.toList_repr]
  exact spells_of_bareValue? Nat.toDigits_ne_nil hscalar (bareValue?_toDigits hn)

/-! ## Scalars as they are written -/

/-- The text is a scalar of this value, written in the plain way. Every reader of TOML has to take
numbers of 64 bits with a sign. -/
inductive Scalar : String → Value → Prop
  | string {quote text : String} (hquote : quote = "\"" ∨ quote = "'") (hne : text ≠ "")
      (hplain : text.toList.all isUnescaped = true) : Scalar (quote ++ text ++ quote) (.string text)
  | boolean (b : Bool) : Scalar (toString b) (.boolean b)
  | integer {n : Nat} (hn : n < Nat.pow 2 63) : Scalar (toString n) (.integer n)

/-- What is written as a scalar is read as that scalar. -/
theorem Scalar.spells {written : String} {value : Value} (h : Scalar written value) :
    Spells written.toList value := by
  cases h with
  | @string quote text hquote hne hplain =>
    have hne : text.toList ≠ [] := fun h => hne (String.toList_eq_nil_iff.1 h)
    rcases hquote with rfl | rfl
    · simpa using spells_string hne hplain (.inl rfl)
    · simpa using spells_string hne hplain (.inr rfl)
  | boolean b => exact spells_bool b
  | integer hn => exact spells_nat (Nat.lt_trans hn (by decide))

end StatementOutline.Toml
