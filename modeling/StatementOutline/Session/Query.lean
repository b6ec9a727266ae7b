import StatementOutline.Outline.Locate
import StatementOutline.Outline.Print
import StatementOutline.Session.Basic
import StatementOutline.Text.Slice

/-!
# Questions to a session

Everything a caller can ask without changing the session. All answers are read off the outline that
the session shows, so before a build and after disposal they are those of an empty outline.
-/

namespace StatementOutline

/-- A statement in short. -/
structure Brief where
  kind : String
  span : Span
  compound : Bool
  deriving DecidableEq, Repr

/-- A statement and its surroundings. -/
structure StatementView where
  brief : Brief
  description : String
  text : Option String
  parent : Option Brief
  /-- Innermost first. -/
  ancestors : List Brief
  children : List Brief
  deriving DecidableEq, Repr

/-- The facts a session keeps from its creation, and how it shows in debugging output. -/
structure SessionInfo where
  language : Language
  range : Span
  textBytes : Nat
  debug : String
  deriving DecidableEq, Repr

/-- From offset `first` on, the same statement is found: none, or one with this many around it. -/
structure LookupRun where
  first : Nat
  found : Option (Nat × Brief)
  deriving DecidableEq, Repr

/-- A question. -/
inductive Query where
  | info
  | statements
  | roots
  | texts
  | dump
  | briefAt (offset : Nat)
  | viewAt (offset : Nat)
  | pathAt (offset : Nat) (lead pad : String)
  | runs
  | same (a b : Nat)
  | sameAsRebuilt (offset : Nat)
  deriving DecidableEq, Repr

/-- The answer to a question. -/
inductive Answer where
  | info (i : SessionInfo)
  | forest (rows : List (Nat × Brief))
  | briefs (bs : List Brief)
  | texts (ts : List (Option String))
  | listing (text : String)
  | brief? (b : Option Brief)
  | view? (v : Option StatementView)
  | path? (text : Option String)
  | runs (rs : List LookupRun)
  | same (equal : Bool)
  | rebuilt (sameNode sameDump : Bool)
  deriving DecidableEq, Repr

/-- A statement in short. -/
def Statement.brief (s : Statement) : Brief :=
  ⟨s.kind, s.span, s.compound⟩

/-- The statement `i` of an outline in short. -/
def Outline.brief (o : Outline) (i : Nat) : Brief :=
  (o.node i).brief

/-- The forest as rows in document order, each with its depth. -/
def Outline.forest (o : Outline) : List (Nat × Brief) :=
  o.preorder.map fun (depth, i) => (depth, o.brief i)

/-- The lookups of the offsets below `count`, each offset that finds another statement than the one
before it with what it finds. -/
def Outline.lookupRuns (o : Outline) (count : Nat) : List LookupRun :=
  (List.range count).filterMap fun offset =>
    let found := o.locate offset
    if offset = 0 || found != o.locate (offset - 1) then
      some ⟨offset, found.map fun i => ((o.ancestors i).length, o.brief i)⟩
    else
      none

namespace Session

/-- The text of statement `i`. -/
def textOf (s : Session) (i : Nat) : Option String :=
  let bytes := (s.outline.node i).bytes
  Text.slice? s.document.text bytes.start bytes.stop

/-- Statement `i` and its surroundings. -/
def view (s : Session) (i : Nat) : StatementView :=
  let o := s.outline
  { brief := o.brief i
    description := (o.node i).describe
    text := s.textOf i
    parent := (o.parentOf i).map o.brief
    ancestors := (o.ancestors i).map o.brief
    children := (o.childrenOf i).toList.map o.brief }

/-- How the session shows in debugging output. -/
def debug (s : Session) : String :=
  let range := s.document.range
  let flag (b : Bool) := if b then "true" else "false"
  "StatementTree \x7b language: " ++ s.document.language.label ++ ", range: " ++
    toString range.start ++ ".." ++ toString range.stop ++ ", built: " ++ flag s.isBuilt ++
    ", disposed: " ++ flag s.disposed ++ " \x7d"

/-- The facts of the session. -/
def info (s : Session) : SessionInfo :=
  ⟨s.document.language, s.document.range, s.document.text.utf8ByteSize, s.debug⟩

/-- A second session on the same document, built, and its log. -/
def rebuilt (s : Session) : Session × List Event :=
  let (fresh, events) := startAmong s.flags s.document
  let report := fresh.build .blocking
  (report.session, events ++ report.events)

/-- Whether a lookup here and in a second session on the same document give the same statement,
which they do only if neither finds any, and whether the listings agree. -/
def compareRebuilt (s : Session) (offset : Nat) : Answer × List Event :=
  let (other, events) := s.rebuilt
  let bothEmpty := (s.outline.locate offset).isNone && (other.outline.locate offset).isNone
  (.rebuilt bothEmpty (s.outline.dump == other.outline.dump), events)

/-- The answer to a question, and what is logged on the way. -/
def ask (s : Session) (q : Query) : Answer × List Event :=
  let o := s.outline
  match q with
  | .info => (.info s.info, [])
  | .statements => (.forest o.forest, [])
  | .roots => (.briefs (o.roots.toList.map o.brief), [])
  | .texts => (.texts (o.preorder.map fun (_, i) => s.textOf i), [])
  | .dump => (.listing o.dump, [])
  | .briefAt offset => (.brief? ((o.locate offset).map o.brief), [])
  | .viewAt offset => (.view? ((o.locate offset).map s.view), [])
  | .pathAt offset lead pad => (.path? ((o.locate offset).map fun i => o.dumpPath i lead pad), [])
  | .runs => (.runs (o.lookupRuns (s.document.length + 3)), [])
  | .same a b => (.same (o.locate a == o.locate b), [])
  | .sameAsRebuilt offset => s.compareRebuilt offset

end Session

end StatementOutline
