import StatementOutline.Settings.Decode

/-!
# Where settings come from

A project's own file wins if it can be read and makes sense. Otherwise the user's file counts, and
failing that the defaults; the files are never mixed. The place of the user's file is chosen by the
environment alone, before any file is looked at. There may be none: no directory is named, and there
is no home either.
-/

namespace StatementOutline

/-- The parts of the environment that say where the user's settings are. -/
structure Environment where
  /-- A directory for this program alone. -/
  ownDirectory : Option String
  /-- A directory for the settings of all programs. -/
  sharedDirectory : Option String
  /-- The user's home, if there is one. -/
  home : Option String
  deriving DecidableEq, Repr

/-- A path below a directory. No separator is added to an empty path or behind another one. -/
def joinPath (directory name : String) : String :=
  if directory.isEmpty || directory.toList.getLast? == some '/' then directory ++ name
  else directory ++ "/" ++ name

namespace Settings

/-- The user's settings file, if there is a place for it. -/
def userPath (env : Environment) : Option String :=
  let below (directory : String) := joinPath (joinPath directory "stree") "config.toml"
  match env.ownDirectory, env.sharedDirectory with
  | some own, _ => some (joinPath own "config.toml")
  | none, some shared => some (below shared)
  | none, none => env.home.map fun home => below (joinPath home ".config")

/-- A project's settings file. -/
def projectPath (project : String) : String :=
  joinPath project projectFileName

/-- The settings for a project, given a reader of TOML and the content of every file that exists. -/
def load (read? : String → Option Toml.Entries) (files : String → Option ByteArray)
    (env : Environment) (project : String) : Settings :=
  match ofFile read? (files (projectPath project)) with
  | .ok settings => settings
  | .error _ =>
    match ofFile read? ((userPath env).bind files) with
    | .ok settings => settings
    | .error _ => {}

end Settings

end StatementOutline
