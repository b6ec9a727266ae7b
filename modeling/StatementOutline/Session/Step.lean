import StatementOutline.Session.Query

/-!
# Steps and runs

A session as a state machine: a step builds, disposes, drops or asks, and its reply holds the
result, what the session shows afterwards, and what was logged. A dropped session answers every
step the same way, save that a handle can still tell it was disposed.
-/

namespace StatementOutline

/-- One thing to do with a session. -/
inductive Step where
  | build (route : BuildRoute)
  /-- Await a build, and dispose through a handle while it is under way. -/
  | buildDisposedInFlight
  /-- Await a build, and give up waiting if it is under way on a worker. -/
  | buildAbandoned
  /-- Build, and dispose through a handle at the `n`-th collapse. -/
  | buildDisposedAtCollapse (n : Nat) (route : BuildRoute)
  | dispose
  /-- Dispose through the handle given out at the start. -/
  | disposeByHandle
  /-- Dispose through a copy of a new handle. -/
  | disposeByHandleCopy
  | drop
  | ask (q : Query)
  deriving DecidableEq, Repr

/-- The result of a step. -/
inductive StepResult where
  | built
  | failed (e : BuildError)
  | abandoned
  | nothing
  /-- `first` tells whether the session was still there to be dropped. -/
  | dropped (first : Bool)
  /-- The session was dropped before. -/
  | gone
  | answered (a : Answer)
  deriving DecidableEq, Repr

/-- What a session shows of its state. -/
structure SessionState where
  built : Bool
  disposed : Bool
  roots : Nat
  deriving DecidableEq, Repr

/-- The reply to a step. -/
structure Reply where
  result : StepResult
  /-- The state after the step, of a session that is still there. -/
  state : Option SessionState
  /-- The handle given out at the start reports the session as disposed. -/
  handleDisposed : Bool
  events : List Event
  deriving DecidableEq, Repr

namespace Session

/-- What the session shows of its state. -/
def state (s : Session) : SessionState :=
  ⟨s.isBuilt, s.disposed, s.outline.roots.size⟩

/-- The reply of a session after a step. -/
def reply (s : Session) (result : StepResult) (events : List Event) : Reply :=
  ⟨result, if s.dropped then none else some s.state, s.handle.isDisposed s.flags, events⟩

/-- The reply to a build. -/
def replyToBuild (report : BuildReport) : Session × Reply :=
  let result := match report.result with
    | .ok () => .built
    | .error e => .failed e
  (report.session, report.session.reply result report.events)

/-- Await a build and give up waiting if a worker has it. The job goes on without anybody to take
what it comes to. -/
def abandon (s : Session) : Session × Reply :=
  match s.poll .nothing with
  | .ready report => replyToBuild report
  | .pending s parser => (s, s.reply .abandoned (s.job.run parser s.flags .nothing).events)

/-- Dispose through a copy of a handle that is given out for this. -/
def disposeByCopy (s : Session) : Session :=
  let handle := s.newHandle
  { s with copies := handle.copy :: handle :: s.copies }.disposeBy handle.copy

/-- One step of a session that was not dropped. -/
def liveStep (s : Session) : Step → Session × Reply
  | .build route => replyToBuild (s.build route)
  | .buildDisposedInFlight => replyToBuild s.buildDisposedInFlight
  | .buildAbandoned => s.abandon
  | .buildDisposedAtCollapse n route => replyToBuild (s.buildUnder (.atCollapse n) route)
  | .dispose => (s.dispose, s.dispose.reply .nothing [])
  | .disposeByHandle =>
    let disposed := s.disposeBy s.handle
    (disposed, disposed.reply .nothing [])
  | .disposeByHandleCopy => (s.disposeByCopy, s.disposeByCopy.reply .nothing [])
  | .drop => (s.drop, s.drop.reply (.dropped true) [])
  | .ask q =>
    let (answer, events) := s.ask q
    (s, s.reply (.answered answer) events)

/-- One step. -/
def step (s : Session) (action : Step) : Session × Reply :=
  if s.dropped then
    (s, s.reply (if action = .drop then .dropped false else .gone) [])
  else
    s.liveStep action

/-- The session after a list of steps, and the reply to each. -/
def run (s : Session) : List Step → Session × List Reply
  | [] => (s, [])
  | action :: rest =>
    let (next, reply) := s.step action
    let (last, replies) := next.run rest
    (last, reply :: replies)

end Session

end StatementOutline
