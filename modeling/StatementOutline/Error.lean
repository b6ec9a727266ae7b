import StatementOutline.Language
import StatementOutline.Span

/-!
# Build errors

Why an outline could not be created or built. An error is a cause; its wording is in one place,
`BuildError.message`. A caller degrades, that is goes on without statements, when the language or
its grammar is at fault (`BuildError.isDegradable`).
-/

namespace StatementOutline

/-- Why an outline could not be created or built. -/
inductive BuildError where
  /-- No rules exist for the editor id. -/
  | unsupportedLanguage (id : String)
  /-- The requested range does not lie in the document, whose length is in the same units. -/
  | invalidRange (range : Span) (length : Nat)
  /-- The grammar of the language delivered no tree. -/
  | grammarFailure (language : Language) (reason : String)
  /-- The session was disposed. -/
  | disposed
  deriving DecidableEq, Repr

namespace BuildError

/-- The text shown to a user. -/
def message : BuildError → String
  | unsupportedLanguage id => "Unsupported language: " ++ id
  | invalidRange range length =>
    "Invalid range " ++ toString range.start ++ ".." ++ toString range.stop ++
      " for a document of length " ++ toString length
  | grammarFailure language reason => "Parser failure for " ++ language.id ++ ": " ++ reason
  | disposed => "Statement tree was disposed"

/-- The caller can go on without statements. -/
def isDegradable : BuildError → Bool
  | unsupportedLanguage _ | grammarFailure _ _ => true
  | invalidRange _ _ | disposed => false

end BuildError

end StatementOutline
