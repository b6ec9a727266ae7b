import StatementOutline.Outline.Reduction

/-!
# Log events

What a session reports while it works. Each event has a level, a fixed message, and fields in a
fixed order.
-/

namespace StatementOutline

/-- How grave an event is. -/
inductive Level where
  | trace
  | debug
  | warn
  deriving DecidableEq, Repr

/-- The name of a level in a log. -/
def Level.label : Level → String
  | trace => "TRACE"
  | debug => "DEBUG"
  | warn => "WARN"

/-- The value of a field of an event. -/
inductive FieldValue where
  | text (s : String)
  | number (n : Nat)
  deriving DecidableEq, Repr

/-- Something worth a line in the log. -/
inductive Event where
  /-- A session was created on a document of the given length. -/
  | created (language : Language) (range : Span) (length : Nat)
  /-- A statement on one line took in what it holds. -/
  | collapsed (note : CollapseNote)
  /-- An outline was built. -/
  | built (language : Language) (range : Span) (statements roots : Nat)
  /-- The session was disposed while its build was under way on a worker. -/
  | disposedDuringBuild (language : Language)
  /-- A finished outline came too late, after disposal. -/
  | discarded (language : Language)
  deriving DecidableEq, Repr

namespace Event

/-- Disposal in the way of a build is a warning, and single collapses are only traced. -/
def level : Event → Level
  | created .. | built .. => .debug
  | collapsed .. => .trace
  | disposedDuringBuild .. | discarded .. => .warn

/-- The fixed text of an event. -/
def message : Event → String
  | created .. => "created statement tree"
  | collapsed .. => "collapsed single-line statement"
  | built .. => "built statement tree"
  | disposedDuringBuild .. => "statement tree disposed during build"
  | discarded .. => "discarding statements built after disposal"

/-- The fields of an event, in the order in which they are written. -/
def fields : Event → List (String × FieldValue)
  | created language range length =>
    [("language", .text language.id), ("start", .number range.start), ("end", .number range.stop),
      ("len", .number length)]
  | collapsed note =>
    [("kind", .text note.kind), ("start", .number note.span.start), ("end", .number note.span.stop)]
  | built language range statements roots =>
    [("language", .text language.id), ("start", .number range.start), ("end", .number range.stop),
      ("statements", .number statements), ("roots", .number roots)]
  | disposedDuringBuild language | discarded language => [("language", .text language.id)]

end Event

end StatementOutline
