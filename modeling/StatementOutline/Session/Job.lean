import StatementOutline.Session.Document
import StatementOutline.Session.Event
import StatementOutline.Session.Token

/-!
# Jobs

A job is a build without its session: it owns what it needs, so that it can run anywhere, and holds
a copy of the session's token. It looks at the flag before the text is parsed and after that, and
the walk looks at it again and again. Others may get in its way while it runs (`Disturbance`): a
handle that disposes the session at some moment, a grammar that delivers no tree, or a worker that
loses the job.
-/

namespace StatementOutline

/-- What gets in the way of a build. -/
inductive Disturbance where
  | nothing
  /-- Disposal before the text is parsed. -/
  | beforeParse
  /-- Disposal while the text is parsed. -/
  | duringParse
  /-- Disposal with the `n`-th collapse, counted from one. -/
  | atCollapse (n : Nat)
  /-- Disposal when the outline is finished. -/
  | atEnd
  /-- The grammar delivers no tree. -/
  | noTree (reason : String)
  /-- The worker loses what the job came to. -/
  | jobLost (reason : String)
  deriving DecidableEq, Repr

/-- The signal that reaches the walk. -/
def Disturbance.signal : Disturbance → StopSignal
  | atCollapse n => .atCollapse n
  | _ => .never

/-- Parses texts of one language. -/
structure Parser where
  language : Language
  deriving DecidableEq, Repr

/-- The syntax tree of a document, if its grammar delivers one. The grammar is bound anew for each
document, so nothing of an earlier one shows in the tree. -/
def Parser.parse (parser : Parser) (d : Document) : Disturbance → Except BuildError SyntaxTree
  | .noTree reason => .error (.grammarFailure parser.language reason)
  | _ => .ok d.tree

/-- What a build needs, apart from its session. -/
structure Job where
  document : Document
  token : Token

/-- What a job came to: an outline or an error, the log, and the flags as they are afterwards. -/
structure JobReport where
  result : Except BuildError Outline
  events : List Event
  flags : Flags

/-- Run a job with a parser. -/
def Job.run (job : Job) (parser : Parser) (flags : Flags) (disturbance : Disturbance) :
    JobReport :=
  let flags := flags.raiseIf job.token (disturbance = .beforeParse)
  if flags.isUp job.token then ⟨.error .disposed, [], flags⟩
  else
    match parser.parse job.document disturbance with
    | .error e => ⟨.error e, [], flags⟩
    | .ok tree =>
      let flags := flags.raiseIf job.token (disturbance = .duringParse)
      if flags.isUp job.token then ⟨.error .disposed, [], flags⟩
      else
        let r := { job.document.reduction disturbance.signal with tree }
        let raised := r.signal.isSet r.walk.notes.size || disturbance = .atEnd
        ⟨r.outline, r.walk.notes.toList.map .collapsed, flags.raiseIf job.token raised⟩

end StatementOutline
