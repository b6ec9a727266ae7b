/-!
# Quoted text in TOML

Basic strings stand in double quotes and know escapes; literal strings stand in single quotes and
know none. Either may be written over several lines between tripled quotes; then a line break
right after the opening is dropped, and up to two quotes may stand before the closing ones. In a
basic string over several lines, a backslash at the end of a line drops the line break and all
blanks and line breaks after it.

Control characters other than the tab are refused, and a carriage return stands only before a line
feed.
-/

namespace StatementOutline.Toml

/-- A character that may stand for itself on a line. -/
def isPlain (c : Char) : Bool :=
  c == '\t' || (0x20 ≤ c.toNat && c.toNat != 0x7f)

/-- The value of a hexadecimal digit, in either case. -/
def hexDigit? (c : Char) : Option Nat :=
  if '0' ≤ c ∧ c ≤ '9' then some (c.toNat - '0'.toNat)
  else if 'a' ≤ c ∧ c ≤ 'f' then some (c.toNat - 'a'.toNat + 10)
  else if 'A' ≤ c ∧ c ≤ 'F' then some (c.toNat - 'A'.toNat + 10)
  else none

/-- The character whose code the hexadecimal digits spell, if there is one. -/
def charOfHex? (digits : List Char) : Option Char := do
  let values ← digits.mapM hexDigit?
  let n := values.foldl (fun n d => 16 * n + d) 0
  if n.isValidChar then some (Char.ofNat n) else none

/-- The character of a one-letter escape. -/
def escapeLetter? : Char → Option Char
  | 'b' => some '\x08'
  | 't' => some '\t'
  | 'n' => some '\n'
  | 'f' => some '\x0c'
  | 'r' => some '\r'
  | 'e' => some '\x1b'
  | '"' => some '"'
  | '\\' => some '\\'
  | _ => none

/-- Read what follows a backslash. -/
def readEscape : List Char → Option (Char × List Char)
  | 'x' :: a :: b :: rest => (charOfHex? [a, b]).map (·, rest)
  | 'u' :: a :: b :: c :: d :: rest => (charOfHex? [a, b, c, d]).map (·, rest)
  | 'U' :: a :: b :: c :: d :: e :: f :: g :: h :: rest =>
    (charOfHex? [a, b, c, d, e, f, g, h]).map (·, rest)
  | c :: rest => (escapeLetter? c).map (·, rest)
  | [] => none

theorem length_lt_of_readEscape {cs rest : List Char} {c : Char}
    (h : readEscape cs = some (c, rest)) : rest.length < cs.length := by
  unfold readEscape at h
  split at h
  case h_5 => cases h
  all_goals
    obtain ⟨_, _, e⟩ := Option.map_eq_some_iff.1 h
    cases e
    simp only [List.length_cons]
    omega

/-- Put characters in front of a text that was read. -/
def prepend (lead : List Char) : Option (List Char × List Char) → Option (List Char × List Char) :=
  Option.map fun (text, rest) => (lead ++ text, rest)

/-- Read a basic string on one line, from behind the opening quote. -/
def readBasic : List Char → Option (List Char × List Char)
  | [] => none
  | '"' :: rest => some ([], rest)
  | '\\' :: rest =>
    match h : readEscape rest with
    | some (c, after) =>
      have : after.length < rest.length := length_lt_of_readEscape h
      prepend [c] (readBasic after)
    | none => none
  | c :: rest => if isPlain c then prepend [c] (readBasic rest) else none
  termination_by cs => cs.length

/-- Read a literal string on one line, from behind the opening quote. -/
def readLiteral : List Char → Option (List Char × List Char)
  | [] => none
  | '\'' :: rest => some ([], rest)
  | c :: rest => if isPlain c then prepend [c] (readLiteral rest) else none

/-- Drop blanks and line breaks. -/
def skipBlankLines : List Char → List Char
  | ' ' :: rest => skipBlankLines rest
  | '\t' :: rest => skipBlankLines rest
  | '\n' :: rest => skipBlankLines rest
  | '\r' :: '\n' :: rest => skipBlankLines rest
  | rest => rest

theorem length_skipBlankLines_le (cs : List Char) : (skipBlankLines cs).length ≤ cs.length := by
  fun_induction skipBlankLines cs <;> simp_all <;> omega

/-- A line break behind blanks, and everything that a backslash before it drops. -/
def skipBrokenLine? (cs : List Char) : Option (List Char) :=
  match cs.dropWhile fun c => c == ' ' || c == '\t' with
  | '\n' :: rest => some (skipBlankLines rest)
  | '\r' :: '\n' :: rest => some (skipBlankLines rest)
  | _ => none

theorem length_lt_of_skipBrokenLine? {cs rest : List Char} (h : skipBrokenLine? cs = some rest) :
    rest.length < cs.length := by
  unfold skipBrokenLine? at h
  have hd := (List.dropWhile_sublist (l := cs) fun c => c == ' ' || c == '\t').length_le
  split at h <;> simp only [Option.some.injEq, reduceCtorEq] at h
  all_goals
    rename_i tail e
    have := length_skipBlankLines_le tail
    rw [e] at hd
    simp at hd
    subst h
    omega

/-- Read a basic string over several lines, from behind the opening quotes. -/
def readBasicLines : List Char → Option (List Char × List Char)
  | [] => none
  | '"' :: '"' :: '"' :: '"' :: '"' :: rest => some (['"', '"'], rest)
  | '"' :: '"' :: '"' :: '"' :: rest => some (['"'], rest)
  | '"' :: '"' :: '"' :: rest => some ([], rest)
  | '\\' :: rest =>
    match h : readEscape rest with
    | some (c, after) =>
      have : after.length < rest.length := length_lt_of_readEscape h
      prepend [c] (readBasicLines after)
    | none =>
      match h : skipBrokenLine? rest with
      | some after =>
        have : after.length < rest.length := length_lt_of_skipBrokenLine? h
        readBasicLines after
      | none => none
  | '\r' :: '\n' :: rest => prepend ['\r', '\n'] (readBasicLines rest)
  | c :: rest => if isPlain c || c == '\n' then prepend [c] (readBasicLines rest) else none
  termination_by cs => cs.length

/-- Read a literal string over several lines, from behind the opening quotes. -/
def readLiteralLines : List Char → Option (List Char × List Char)
  | [] => none
  | '\'' :: '\'' :: '\'' :: '\'' :: '\'' :: rest => some (['\'', '\''], rest)
  | '\'' :: '\'' :: '\'' :: '\'' :: rest => some (['\''], rest)
  | '\'' :: '\'' :: '\'' :: rest => some ([], rest)
  | '\r' :: '\n' :: rest => prepend ['\r', '\n'] (readLiteralLines rest)
  | c :: rest => if isPlain c || c == '\n' then prepend [c] (readLiteralLines rest) else none

/-- Drop the line break that may follow opening quotes. -/
def dropFirstBreak : List Char → List Char
  | '\n' :: rest => rest
  | '\r' :: '\n' :: rest => rest
  | rest => rest

/-- Read any string that may stand as a value. -/
def readString? : List Char → Option (List Char × List Char)
  | '"' :: '"' :: '"' :: rest => readBasicLines (dropFirstBreak rest)
  | '"' :: rest => readBasic rest
  | '\'' :: '\'' :: '\'' :: rest => readLiteralLines (dropFirstBreak rest)
  | '\'' :: rest => readLiteral rest
  | _ => none

end StatementOutline.Toml
