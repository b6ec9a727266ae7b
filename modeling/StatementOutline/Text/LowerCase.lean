import StatementOutline.Text.CaseTable

/-!
# Lower case

Full lower-casing of a text. Every character goes to its lower-case partner, with two exceptions:
capital I with a dot above keeps the dot as a combining mark, and capital sigma takes its final
form at the end of a word. A sigma ends a word when, looking past characters that case rules
ignore, a cased letter comes before it and none comes after.
-/

namespace StatementOutline.Text

/-- Skip the characters that case rules look past; the next one is a cased letter. -/
def meetsCased (cs : List Char) : Bool :=
  match cs.dropWhile fun c => inRanges caseIgnorableRanges c.toNat with
  | [] => false
  | c :: _ => inRanges casedRanges c.toNat

/-- The lower-case partner of one character, without regard to its neighbours. -/
def lowerChar (c : Char) : Char :=
  match lowerCaseRuns.findSome? fun run => run.map? c.toNat with
  | some n => Char.ofNat n
  | none => c

/-- Lower case of `cs`, where `before` holds the preceding characters, nearest first. -/
def lowerFrom (before : List Char) : List Char → List Char
  | [] => []
  | c :: cs =>
    let image :=
      if c = 'İ' then ['i', '\u0307']
      else if c = 'Σ' then [if meetsCased before && !meetsCased cs then 'ς' else 'σ']
      else [lowerChar c]
    image ++ lowerFrom (c :: before) cs

/-- The text in lower case. -/
def lowerCase (text : String) : String :=
  String.ofList (lowerFrom [] text.toList)

end StatementOutline.Text
