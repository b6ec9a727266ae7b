import StatementOutline.Toml.Quoted
import StatementOutline.Toml.Value

/-!
# Bare scalars in TOML

Booleans, integers, floating-point numbers and dates stand without quotes. Each is a run of
characters up to a blank, a line break or a delimiter, and is read as a whole. Digits may be
grouped by single underscores between digits. A floating-point number too large for a double cannot
be taken, nor an integer of more than 128 bits, nor the mark of a base without digits behind it; all
of these are still well written.
-/

namespace StatementOutline.Toml

/-- Digits without the underscores that group them, if each underscore stands between two. -/
def ungroup (isDigit : Char → Bool) : List Char → Option (List Char)
  | [] => none
  | [c] => if isDigit c then some [c] else none
  | c :: '_' :: rest => if isDigit c then (ungroup isDigit rest).map (c :: ·) else none
  | c :: rest => if isDigit c then (ungroup isDigit rest).map (c :: ·) else none

/-- The number that digits spell in a base. -/
def natOfDigits (base : Nat) (digits : List Char) : Nat :=
  digits.foldl (fun n c => base * n + (hexDigit? c).getD 0) 0

/-- A grouped number in a base. -/
def readNat? (base : Nat) (cs : List Char) : Option Nat :=
  (ungroup (fun c => (hexDigit? c).any (· < base)) cs).map (natOfDigits base)

/-- Decimal digits without a superfluous leading zero. -/
def readWhole? (cs : List Char) : Option (List Char) :=
  (ungroup Char.isDigit cs).filter fun digits => digits.head? != some '0' || digits.length == 1

/-- A number without its sign, and whether the sign was a minus. -/
def splitSign : List Char → Bool × List Char
  | '+' :: rest => (false, rest)
  | '-' :: rest => (true, rest)
  | rest => (false, rest)

/-- The value of an integer, which can be taken up to 128 bits. -/
def integerValue (n : Int) : Value :=
  if -Int.ofNat (Nat.pow 2 127) ≤ n ∧ n < Int.ofNat (Nat.pow 2 128) then .integer n else .unusable

/-- The number behind the mark of a base. -/
def readRadix? (base : Nat) (cs : List Char) : Option Value :=
  if cs.isEmpty then some .unusable else (readNat? base cs).map fun n => integerValue n

/-- The number that decimal digits spell, below zero behind a minus. -/
def signedNat (negative : Bool) (digits : List Char) : Int :=
  if negative then -Int.ofNat (natOfDigits 10 digits) else Int.ofNat (natOfDigits 10 digits)

/-- An integer, decimal with an optional sign or in one of three other bases. -/
def readInteger? : List Char → Option Value
  | '0' :: 'x' :: rest => readRadix? 16 rest
  | '0' :: 'o' :: rest => readRadix? 8 rest
  | '0' :: 'b' :: rest => readRadix? 2 rest
  | cs =>
    let (negative, digits) := splitSign cs
    (readWhole? digits).map fun ds => integerValue (signedNat negative ds)

/-- The number `mantissa · 10 ^ exponent` is too large for a double: it rounds up to the power of
two behind the largest one. -/
def overflowsDouble (mantissa : Nat) (exponent : Int) : Bool :=
  if mantissa = 0 then false
  else
    let places := ((Nat.toDigits 10 mantissa).length : Int) + exponent
    if places ≤ 308 then false
    else if 310 ≤ places then true
    else
      let bound := Nat.pow 2 1024 - Nat.pow 2 970
      bound * Nat.pow 10 (-exponent).toNat ≤ mantissa * Nat.pow 10 exponent.toNat

/-- The exponent of a floating-point number, from behind its mark. -/
def readExponent? (cs : List Char) : Option Int :=
  let (negative, digits) := splitSign cs
  (ungroup Char.isDigit digits).map (signedNat negative)

/-- The value of a decimal number, from its whole digits, those of its fraction and its exponent. -/
def floatValue (whole fraction : List Char) (exponent : Int) : Value :=
  if overflowsDouble (natOfDigits 10 (whole ++ fraction)) (exponent - fraction.length) then
    .unusable
  else
    .float

/-- A decimal number with a fraction or an exponent. -/
def readDecimal? (cs : List Char) : Option Value := do
  let isMark (c : Char) := c == 'e' || c == 'E'
  let (whole, rest) := cs.span fun c => !(c == '.' || isMark c)
  let whole ← readWhole? whole
  match rest with
  | '.' :: rest =>
    let (fraction, rest) := rest.span fun c => !isMark c
    let fraction ← ungroup Char.isDigit fraction
    match rest with
    | [] => return floatValue whole fraction 0
    | _ :: exponent => return floatValue whole fraction (← readExponent? exponent)
  | _ :: exponent => return floatValue whole [] (← readExponent? exponent)
  | [] => none

/-- A floating-point number. -/
def readFloat? (cs : List Char) : Option Value :=
  let (_, magnitude) := splitSign cs
  if magnitude = ['i', 'n', 'f'] ∨ magnitude = ['n', 'a', 'n'] then some .float
  else readDecimal? magnitude

/-- Two digits at the front. -/
def twoDigits? : List Char → Option (Nat × List Char)
  | a :: b :: rest => if a.isDigit && b.isDigit then some (natOfDigits 10 [a, b], rest) else none
  | _ => none

/-- The last day of a month. -/
def lastDay (year month : Nat) : Nat :=
  if month = 2 then
    if year % 4 = 0 ∧ (year % 100 ≠ 0 ∨ year % 400 = 0) then 29 else 28
  else if month = 4 ∨ month = 6 ∨ month = 9 ∨ month = 11 then 30
  else 31

/-- Read a date, `YYYY-MM-DD`. -/
def readDate? (cs : List Char) : Option (List Char) := do
  let (century, cs) ← twoDigits? cs
  let (year, cs) ← twoDigits? cs
  let '-' :: cs := cs | none
  let (month, cs) ← twoDigits? cs
  let '-' :: cs := cs | none
  let (day, cs) ← twoDigits? cs
  if 1 ≤ month ∧ month ≤ 12 ∧ 1 ≤ day ∧ day ≤ lastDay (100 * century + year) month then some cs
  else none

/-- Read the fraction of a second, if there is one. -/
def readFraction? : List Char → Option (List Char)
  | '.' :: c :: rest => if c.isDigit then some (rest.dropWhile Char.isDigit) else none
  | '.' :: [] => none
  | rest => some rest

/-- Read a time, `HH:MM` with optional seconds and fraction. -/
def readTime? (cs : List Char) : Option (List Char) := do
  let (hour, cs) ← twoDigits? cs
  let ':' :: cs := cs | none
  let (minute, cs) ← twoDigits? cs
  if 23 < hour ∨ 59 < minute then none
  else
    match cs with
    | ':' :: cs => do
      let (second, cs) ← twoDigits? cs
      if 60 < second then none else readFraction? cs
    | _ => some cs

/-- The text is an offset from universal time, or nothing. -/
def isZone : List Char → Bool
  | [] => true
  | ['Z'] => true
  | ['z'] => true
  | c :: rest =>
    (c == '+' || c == '-') &&
      match twoDigits? rest with
      | some (hour, ':' :: rest) =>
        match twoDigits? rest with
        | some (minute, []) => hour ≤ 23 && minute ≤ 59
        | _ => false
      | _ => false

/-- The text is a date, a time, or both. -/
def isDateTime (cs : List Char) : Bool :=
  match readDate? cs with
  | some [] => true
  | some (c :: rest) => (c == 'T' || c == 't' || c == ' ') && (readTime? rest).any isZone
  | none => readTime? cs == some []

/-- The value of a bare scalar. -/
def bareValue? (cs : List Char) : Option Value :=
  if cs = ['t', 'r', 'u', 'e'] then some (.boolean true)
  else if cs = ['f', 'a', 'l', 's', 'e'] then some (.boolean false)
  else if isDateTime cs then some .dateTime
  else (readInteger? cs).or (readFloat? cs)

/-- A character that a bare scalar may hold. -/
def isBareChar (c : Char) : Bool :=
  !([' ', '\t', '\n', '\r', ',', ']', '}', '#'].contains c)

/-- A single blank between a date and a time is part of the scalar. -/
def splitBare (cs : List Char) : List Char × List Char :=
  let (bare, rest) := cs.span isBareChar
  match readDate? bare, rest with
  | some [], ' ' :: c :: more =>
    if c.isDigit then
      let (time, rest) := (c :: more).span isBareChar
      (bare ++ ' ' :: time, rest)
    else
      (bare, rest)
  | _, _ => (bare, rest)

/-- Read a bare scalar. -/
def readBare? (cs : List Char) : Option (Value × List Char) :=
  let (bare, rest) := splitBare cs
  (bareValue? bare).map (·, rest)

end StatementOutline.Toml
