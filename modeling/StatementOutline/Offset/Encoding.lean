import StatementOutline.Text.LowerCase

/-!
# Offset encodings

The unit that offsets are counted in. `width` is the size of one character in the unit, and
`measure` the size of a text; the ways `measure` counts (bytes, characters, 16-bit units) all give
the sum of the widths.
-/

namespace StatementOutline

/-- The unit of every offset that a caller passes in or gets back. -/
inductive OffsetEncoding where
  /-- Unicode scalar values. -/
  | char
  /-- UTF-16 code units. -/
  | utf16
  /-- UTF-8 bytes. -/
  | utf8
  deriving DecidableEq, Repr, Inhabited

/-- Number of UTF-16 code units of a character: two above the basic plane. -/
def utf16Width (c : Char) : Nat :=
  if c.toNat < 0x10000 then 1 else 2

/-- An ASCII character is one unit wide in every encoding. -/
def isAscii (c : Char) : Bool :=
  c.toNat < 0x80

namespace OffsetEncoding

/-- Width of a character in the unit. -/
def width : OffsetEncoding → Char → Nat
  | char, _ => 1
  | utf16, c => utf16Width c
  | utf8, c => c.utf8Size

/-- Length of a text in the unit. A pure ASCII text has as many characters as bytes. -/
def measure (encoding : OffsetEncoding) (text : String) : Nat :=
  match encoding with
  | utf8 => text.utf8ByteSize
  | char => if text.toList.all isAscii then text.utf8ByteSize else text.length
  | utf16 => text.toList.foldl (fun units c => units + utf16Width c) 0

/-- The name in debugging output. -/
def label : OffsetEncoding → String
  | char => "Char"
  | utf16 => "Utf16"
  | utf8 => "Utf8"

/-- The name in settings files. -/
def serialName : OffsetEncoding → String
  | char => "char"
  | utf16 => "utf16"
  | utf8 => "utf8"

/-- The encoding of a settings-file name, matched exactly. -/
def ofSerialName? : String → Option OffsetEncoding
  | "char" => some char
  | "utf16" => some utf16
  | "utf8" => some utf8
  | _ => none

/-- Reading back a settings-file name gives the encoding that was written. -/
theorem ofSerialName?_serialName (e : OffsetEncoding) : ofSerialName? e.serialName = some e := by
  cases e <;> rfl

/-- The encoding of a spelling in lower case. -/
def ofLowerName? : String → Option OffsetEncoding
  | "char" | "chars" => some char
  | "utf16" | "utf-16" => some utf16
  | "utf8" | "utf-8" | "byte" | "bytes" => some utf8
  | _ => none

/-- The encoding a user means by `name`, in any case; otherwise the name as it was compared. -/
def ofName (name : String) : Except String OffsetEncoding :=
  let lower := Text.lowerCase name
  match ofLowerName? lower with
  | some encoding => .ok encoding
  | none => .error lower

end OffsetEncoding

end StatementOutline
