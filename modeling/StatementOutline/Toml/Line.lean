import StatementOutline.Toml.Insert
import StatementOutline.Toml.Scalar

/-!
# Lines of a TOML document

A document is a list of lines: headers, assignments, and lines with nothing but blanks or a
comment. A value can run over several lines of text; it still belongs to one assignment. An
assignment of its own keeps its key, its equals sign and the start of its value on one line; one in
an inline table may break anywhere around the equals sign.

Every reader takes the text ahead and gives what it read with the text behind it. A reader that
repeats goes on only if the text got shorter, which it always does.
-/

namespace StatementOutline.Toml

/-- A dotted key: the tables on the way, and the key in the last of them. -/
structure Key where
  path : List String
  name : String
  deriving DecidableEq, Repr

/-- The tables on the way to the table that a header names, and that table. -/
def Key.steps (k : Key) : List String :=
  k.path ++ [k.name]

/-- One line of a document. -/
inductive Line where
  | blank
  | header (key : Key)
  | arrayHeader (key : Key)
  | assign (key : Key) (value : Value)

/-- Drop blanks. -/
def skipBlanks (cs : List Char) : List Char :=
  cs.dropWhile fun c => c == ' ' || c == '\t'

/-- The text behind a comment, from behind its mark up to the end of the line. -/
def skipComment (cs : List Char) : List Char :=
  cs.dropWhile isPlain

/-- Drop blanks, a comment, and the line break behind them; the text may also end. -/
def endLine? (cs : List Char) : Option (List Char) :=
  let rest := match skipBlanks cs with
    | '#' :: comment => skipComment comment
    | rest => rest
  match rest with
  | [] => some []
  | '\n' :: rest => some rest
  | '\r' :: '\n' :: rest => some rest
  | _ => none

/-- Drop blanks, line breaks and comments, which may stand between the items of an array and around
everything in an inline table but the dots of a key. -/
def skipBetween : (inComment : Bool) → List Char → Option (List Char)
  | _, [] => some []
  | _, '\n' :: rest => skipBetween false rest
  | _, '\r' :: '\n' :: rest => skipBetween false rest
  | true, c :: rest => if isPlain c then skipBetween true rest else none
  | false, '#' :: rest => skipBetween true rest
  | false, c :: rest => if c == ' ' || c == '\t' then skipBetween false rest else some (c :: rest)

/-- A character of a key without quotes. -/
def isKeyChar (c : Char) : Bool :=
  c.isAlphanum || c == '_' || c == '-'

/-- Read one part of a dotted key. -/
def readKeyPart? : List Char → Option (String × List Char)
  | '"' :: rest => (readBasic rest).map fun (text, rest) => (String.ofList text, rest)
  | '\'' :: rest => (readLiteral rest).map fun (text, rest) => (String.ofList text, rest)
  | cs =>
    match cs.span isKeyChar with
    | ([], _) => none
    | (bare, rest) => some (String.ofList bare, rest)

/-- Read the parts of a dotted key and the blanks behind them. -/
def readParts? (cs : List Char) : Option (Key × List Char) :=
  match readKeyPart? cs with
  | none => none
  | some (part, rest) =>
    match skipBlanks rest with
    | '.' :: more =>
      let more := skipBlanks more
      if more.length < cs.length then
        (readParts? more).map fun (key, rest) => (⟨part :: key.path, key.name⟩, rest)
      else
        none
    | rest => some (⟨[], part⟩, rest)
  termination_by cs.length

/-- How deep arrays and inline tables may nest, and how many parts a dotted key may have. -/
def maxDepth : Nat := 80

/-- Read a dotted key and the blanks behind it. -/
def readKey? (cs : List Char) : Option (Key × List Char) :=
  (readParts? cs).filter fun (key, _) => key.steps.length ≤ maxDepth

/-- Read an assignment, given what may stand around its equals sign and how to read its value. -/
def readAssign? (skip : List Char → Option (List Char))
    (value : List Char → Option (Value × List Char)) (cs : List Char) :
    Option ((Key × Value) × List Char) := do
  let (key, rest) ← readKey? cs
  let '=' :: rest ← skip rest | none
  let (v, rest) ← value (← skip rest)
  return ((key, v), rest)

/-- Read the items of an array up to its closing bracket, given how to read one. -/
def readItems? (value : List Char → Option (Value × List Char)) (cs : List Char) :
    Option (List Value × List Char) :=
  match skipBetween false cs with
  | none => none
  | some (']' :: rest) => some ([], rest)
  | some inner =>
    match value inner with
    | none => none
    | some (item, rest) =>
      match skipBetween false rest with
      | some (']' :: rest) => some ([item], rest)
      | some (',' :: rest) =>
        if rest.length < cs.length then
          (readItems? value rest).map fun (items, rest) => (item :: items, rest)
        else
          none
      | _ => none
  termination_by cs.length

/-- Read the entries of an inline table up to its closing brace, given how to read a value and the
entries so far. -/
def readEntries? (value : List Char → Option (Value × List Char)) (entries : Entries)
    (cs : List Char) : Option (Entries × List Char) :=
  match skipBetween false cs with
  | none => none
  | some ('}' :: rest) => some (entries, rest)
  | some inner =>
    match readAssign? (skipBetween false) value inner with
    | none => none
    | some ((key, v), rest) =>
      match entries.insertDotted? key.path key.name v, skipBetween false rest with
      | some entries, some ('}' :: rest) => some (entries, rest)
      | some entries, some (',' :: rest) =>
        if rest.length < cs.length then readEntries? value entries rest else none
      | _, _ => none
  termination_by cs.length

/-- Read a value in which arrays and inline tables nest at most `depth` levels deep. -/
def readValue? (depth : Nat) (cs : List Char) : Option (Value × List Char) :=
  match depth, cs with
  | 0, '[' :: _ => none
  | depth + 1, '[' :: rest =>
    (readItems? (readValue? depth) rest).map fun (items, rest) => (.array items, rest)
  | 0, '{' :: _ => none
  | depth + 1, '{' :: rest =>
    (readEntries? (readValue? depth) [] rest).map fun (entries, rest) =>
      (.table .inline entries, rest)
  | _, cs =>
    match cs.head? with
    | some '"' | some '\'' =>
      (readString? cs).map fun (text, rest) => (.string (String.ofList text), rest)
    | _ => readBare? cs

/-- Read what a line holds, without the end of the line. -/
def readContent? (cs : List Char) : Option (Line × List Char) :=
  match cs with
  | '[' :: '[' :: rest =>
    match readKey? (skipBlanks rest) with
    | some (key, ']' :: ']' :: rest) => some (.arrayHeader key, rest)
    | _ => none
  | '[' :: rest =>
    match readKey? (skipBlanks rest) with
    | some (key, ']' :: rest) => some (.header key, rest)
    | _ => none
  | [] | '#' :: _ | '\n' :: _ | '\r' :: _ => some (.blank, cs)
  | _ =>
    (readAssign? (some <| skipBlanks ·) (readValue? maxDepth) cs).map fun ((key, v), rest) =>
      (.assign key v, rest)

/-- Read one line. -/
def readLine? (cs : List Char) : Option (Line × List Char) := do
  let (line, rest) ← readContent? (skipBlanks cs)
  let rest ← endLine? rest
  return (line, rest)

/-- Read all lines. -/
def readLines? (cs : List Char) : Option (List Line) :=
  if cs.isEmpty then some []
  else
    match readLine? cs with
    | none => none
    | some (line, rest) =>
      if rest.length < cs.length then (readLines? rest).map (line :: ·) else none
  termination_by cs.length

end StatementOutline.Toml
