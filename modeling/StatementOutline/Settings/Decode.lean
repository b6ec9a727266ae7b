import StatementOutline.Settings.Basic
import StatementOutline.Toml.Value

/-!
# Settings in a TOML table

Settings stand in the table `parser`. Every key is optional, a missing one keeps its default, and
keys that mean nothing here are passed over, though every number behind them has to be one that can
be taken. The table may also be given as an array, which lists the settings in order; nobody looks
at what follows the last of them. A date in its place has none of the keys, so it leaves the
defaults.

How a text comes to be a table is up to a reader of TOML, which is a parameter from here on.
-/

namespace StatementOutline.Settings

open Toml (Value Entries)

/-- Nothing is in the value that goes with the name of an encoding. -/
def isUnit : Value → Bool
  | .array items => items.isEmpty
  | .tables items => items.isEmpty
  | .table _ entries => entries.isEmpty
  | _ => false

/-- An encoding: its name, or a table with the name as its only key and nothing behind it. -/
def decodeEncoding? : Value → Option OffsetEncoding
  | .string name => OffsetEncoding.ofSerialName? name
  | .table _ [(name, value)] =>
    if isUnit value then OffsetEncoding.ofSerialName? name else none
  | _ => none

/-- A truth value. -/
def decodeBool? : Value → Option Bool
  | .boolean b => some b
  | _ => none

/-- A count that fits a machine word. -/
def decodeCount? : Value → Option Nat
  | .integer n => if 0 ≤ n && n < 0x10000000000000000 then some n.toNat else none
  | _ => none

/-- Decode the value of a key, or keep the default if it is missing. -/
def decodeOr? {α : Type} (decode? : Value → Option α) (default : α) : Option Value → Option α
  | none => some default
  | some value => decode? value

/-- The settings, from the value of each key. -/
def decodeFields? (encoding worker interval : Option Value) : Option Settings := do
  let defaults : Settings := {}
  return {
    offsetEncoding := ← decodeOr? decodeEncoding? defaults.offsetEncoding encoding
    parseOnWorker := ← decodeOr? decodeBool? defaults.parseOnWorker worker
    checkInterval := ← decodeOr? decodeCount? defaults.checkInterval interval }

/-- The settings in the value of `parser`. -/
def decodeSection? : Value → Option Settings
  | .table _ entries =>
    let value? := Entries.value? entries
    if Entries.areUsable entries then
      decodeFields? (value? "offset_encoding") (value? "parse_on_worker")
        (value? "cancel_check_interval")
    else
      none
  | .array items => decodeFields? items[0]? items[1]? items[2]?
  | .tables items =>
    let values := items.map (Value.table .header)
    decodeFields? values[0]? values[1]? values[2]?
  | .dateTime => some {}
  | _ => none

/-- The settings in a document's table. -/
def decode? (entries : Entries) : Option Settings :=
  let others := entries.filter fun (key, _) => key != "parser"
  if Entries.areUsable others then decodeOr? decodeSection? {} (entries.value? "parser") else none

/-- The settings in the text of a settings file. -/
def ofText (read? : String → Option Entries) (text : String) : Except SettingsError Settings :=
  match (read? text).bind decode? with
  | some settings => .ok settings
  | none => .error .malformed

/-- The settings in a settings file: missing, or with the given content. -/
def ofFile (read? : String → Option Entries) : Option ByteArray → Except SettingsError Settings
  | none => .error .unreadable
  | some bytes =>
    match String.fromUTF8? bytes with
    | some text => ofText read? text
    | none => .error .unreadable

end StatementOutline.Settings
