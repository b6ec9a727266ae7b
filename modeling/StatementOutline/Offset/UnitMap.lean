import StatementOutline.Offset.Encoding
import StatementOutline.PartitionPoint

/-!
# From bytes to units

A `UnitMap` turns byte positions of one text into offsets in a chosen unit. It keeps one anchor
after every non-ASCII character; the text between two anchors is ASCII, so from the last anchor at
or before a byte position on, bytes and units advance together. A pure ASCII text, and a text
measured in bytes, needs only the anchor at the start.
-/

namespace StatementOutline

/-- A place where the byte position and the unit offset are both known. -/
structure Anchor where
  byte : Nat
  unit : Nat
  deriving DecidableEq, Repr, Inhabited

/-- The anchors of a text, in increasing order, and the text's length in units. -/
structure UnitMap where
  anchors : Array Anchor
  length : Nat
  deriving DecidableEq, Repr

namespace UnitMap

/-- The anchors of the remaining characters `cs`, which begin at `byte`, when the last anchor so
far is `last`. -/
def anchorsFrom (encoding : OffsetEncoding) (last : Anchor) (byte : Nat) : List Char → List Anchor
  | [] => []
  | c :: cs =>
    let next := byte + c.utf8Size
    if isAscii c then
      anchorsFrom encoding last next cs
    else
      let anchor := ⟨next, last.unit + (byte - last.byte) + encoding.width c⟩
      anchor :: anchorsFrom encoding anchor next cs

/-- All anchors of a text, the start included. -/
def anchorsOf (encoding : OffsetEncoding) (text : String) : Array Anchor :=
  if encoding = .utf8 || text.toList.all isAscii then
    #[⟨0, 0⟩]
  else
    (⟨0, 0⟩ :: anchorsFrom encoding ⟨0, 0⟩ 0 text.toList).toArray

/-- The last anchor at or before a byte position. The first anchor is at the start, so there is
always one. -/
def anchorBefore (anchors : Array Anchor) (byte : Nat) : Anchor :=
  let passed := partitionPoint (fun a => a.byte ≤ byte) anchors
  anchors[passed - 1]?.getD ⟨0, 0⟩

/-- Offset of a byte position, counted on from the last anchor at or before it. -/
def unitsAt (anchors : Array Anchor) (byte : Nat) : Nat :=
  let anchor := anchorBefore anchors byte
  anchor.unit + (byte - anchor.byte)

/-- The map of a text in an encoding. -/
def ofText (encoding : OffsetEncoding) (text : String) : UnitMap :=
  let anchors := anchorsOf encoding text
  ⟨anchors, unitsAt anchors text.utf8ByteSize⟩

/-- Offset of a byte position. -/
def toUnits (map : UnitMap) (byte : Nat) : Nat :=
  unitsAt map.anchors byte

/-- The text has no characters. -/
def isEmpty (map : UnitMap) : Bool :=
  map.length == 0

/-- How the map shows in debugging output. -/
def debug (map : UnitMap) : String :=
  let pair (a : Anchor) := "(" ++ toString a.byte ++ ", " ++ toString a.unit ++ ")"
  let pairs := map.anchors.toList.map pair
  "OffsetIndex \x7b anchors: [" ++ ", ".intercalate pairs ++ "], len: " ++ toString map.length ++
    " \x7d"

end UnitMap

end StatementOutline
