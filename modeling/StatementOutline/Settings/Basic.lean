import StatementOutline.Offset.Encoding

/-!
# Settings

What a user can set, the defaults, and the template of a settings file.
-/

namespace StatementOutline

/-- The settings of a session. -/
structure Settings where
  /-- The unit of ranges and reported spans. -/
  offsetEncoding : OffsetEncoding := .char
  /-- An awaited build runs on a worker. -/
  parseOnWorker : Bool := true
  /-- Nodes visited from one look at the stop signal to the next. -/
  checkInterval : Nat := 256
  deriving DecidableEq, Repr, Inhabited

namespace Settings

/-- The name of a project's settings file. -/
def projectFileName : String := ".stree.toml"

/-- A settings file that spells out the defaults. -/
def template : String :=
  let defaults : Settings := {}
  let rule := "# " ++ String.ofList (List.replicate 76 '=') ++ "\n"
  "# Statement tree configuration\n" ++
  "# Place in " ++ projectFileName ++ " (project) or ~/.config/stree/config.toml (user)\n\n" ++
  rule ++ "# Parser\n" ++ rule ++ "\n" ++
  "[parser]\n" ++
  "# Offset unit for ranges and node spans: char, utf16, or utf8\n" ++
  "offset_encoding = \"" ++ defaults.offsetEncoding.serialName ++ "\"\n\n" ++
  "# Parse on tokio's blocking pool when build() is awaited\n" ++
  "parse_on_worker = " ++ (if defaults.parseOnWorker then "true" else "false") ++ "\n\n" ++
  "# Syntax nodes visited between cancellation checks\n" ++
  "cancel_check_interval = " ++ toString defaults.checkInterval ++ "\n"

end Settings

/-- Why settings could not be taken. -/
inductive SettingsError where
  /-- The file is missing, or its content is no text. -/
  | unreadable
  /-- The content is no settings file. -/
  | malformed
  /-- A value outside the accepted set. -/
  | invalidValue (key value : String)
  deriving DecidableEq, Repr

/-- The text shown to a user. -/
def SettingsError.message : SettingsError → String
  | unreadable => "Failed to read config"
  | malformed => "Failed to parse config"
  | invalidValue key value => "Invalid value for " ++ key ++ ": " ++ value

/-- The offset encoding a user names; a refused name is reported as it was compared. -/
def Settings.encodingOfName (name : String) : Except SettingsError OffsetEncoding :=
  match OffsetEncoding.ofName name with
  | .ok encoding => .ok encoding
  | .error lower => .error (.invalidValue "offset_encoding" lower)

end StatementOutline
