import StatementOutline.Session.Job

/-!
# Sessions

A session holds one document and, once built, its outline. Building happens at most once: with an
outline in place a further build has nothing to do and succeeds. A session can be disposed from
inside, which also lets go of parser and outline, or through a handle, which only puts its flag up;
either way it shows no statements from then on. Dropping a session disposes it.

A build takes the parser of the session and does not give it back, so a session that is built a
second time, after a first build failed or was given up, makes itself a new one. A blocking build
runs its job where it is called. An awaited build does so too, or else hands the job to a worker and
waits; the waiting caller looks at the flag before it looks at the job.
-/

namespace StatementOutline

/-- One document, what is made of it, and the flag that others share. -/
structure Session where
  document : Document
  /-- The parser, until a build takes it. -/
  parser : Option Parser
  built : Option Outline
  token : Token
  flags : Flags
  /-- The handle that was given out at the start. -/
  handle : Handle
  /-- Handles given out later, and copies of handles. -/
  copies : List Handle
  dropped : Bool
  deriving DecidableEq, Repr

/-- How a build is called. -/
inductive BuildRoute where
  | awaited
  | blocking
  deriving DecidableEq, Repr

/-- The outcome of a build: the session after it, success or an error, and the log. -/
structure BuildReport where
  session : Session
  result : Except BuildError Unit
  events : List Event

/-- The report with what was logged before. -/
def BuildReport.behind (report : BuildReport) (events : List Event) : BuildReport :=
  ⟨report.session, report.result, events ++ report.events⟩

namespace Session

/-- A session on a document, its token issued among the given flags, and its log. -/
def startAmong (flags : Flags) (d : Document) : Session × List Event :=
  let (token, flags) := flags.issue
  ({ document := d, parser := some ⟨d.language⟩, built := none, token, flags, handle := ⟨token⟩,
     copies := [], dropped := false },
    [.created d.language d.range d.length])

/-- A fresh session on a document, and its log. -/
def start (d : Document) : Session × List Event :=
  startAmong {} d

/-- The flag is up. -/
def disposed (s : Session) : Bool :=
  s.flags.isUp s.token

/-- An outline is in place and may be shown. -/
def isBuilt (s : Session) : Bool :=
  s.built.isSome && !s.disposed

/-- The outline to show: none of it before a build or after disposal. -/
def outline (s : Session) : Outline :=
  if s.disposed then .empty else s.built.getD .empty

/-- A handle of the session. -/
def newHandle (s : Session) : Handle :=
  ⟨s.token⟩

/-- Dispose through a handle: put its flag up. -/
def disposeBy (s : Session) (handle : Handle) : Session :=
  { s with flags := handle.dispose s.flags }

/-- Dispose from inside: put the flag up, and let go of parser and outline. -/
def dispose (s : Session) : Session :=
  { s with flags := s.flags.raise s.token, parser := none, built := none }

/-- Let go of the session altogether. -/
def drop (s : Session) : Session :=
  { s with flags := s.flags.raise s.token, dropped := true }

/-- The session after its parser is taken. -/
def withoutParser (s : Session) : Session :=
  { s with parser := none }

/-- Take the parser, or make one if it was taken before. A disposed session has none to give. -/
def takeParser (s : Session) : Except BuildError (Parser × Session) :=
  if s.disposed then .error .disposed
  else .ok (s.parser.getD ⟨s.document.language⟩, s.withoutParser)

/-- The session with the flags as a job left them. -/
def withFlags (s : Session) (flags : Flags) : Session :=
  { s with flags }

/-- The job of a build. -/
def job (s : Session) : Job :=
  ⟨s.document, s.token⟩

/-- Put a finished outline in place, unless the session was disposed in the meantime. -/
def install (s : Session) (o : Outline) : BuildReport :=
  let d := s.document
  if s.disposed then
    ⟨s, .error .disposed, [.discarded d.language]⟩
  else
    ⟨{ s with built := some o }, .ok (), [.built d.language d.range o.size o.roots.size]⟩

/-- End a build by what its job came to. -/
def conclude (s : Session) (report : JobReport) : BuildReport :=
  let s := s.withFlags report.flags
  match report.result with
  | .error e => ⟨s, .error e, report.events⟩
  | .ok o => (s.install o).behind report.events

/-- What a worker hands over of a job, or why it does not. -/
def joined (report : JobReport) : Disturbance → Except String JobReport
  | .jobLost reason => .error reason
  | _ => .ok report

/-- Wait for a job on a worker. If the flag is up, nobody looks at the job. -/
def await (s : Session) (parser : Parser) (disturbance : Disturbance) : BuildReport :=
  let report := s.job.run parser s.flags disturbance
  let language := s.document.language
  let s := s.withFlags report.flags
  if s.disposed then
    ⟨s, .error .disposed, report.events ++ [.disposedDuringBuild language]⟩
  else
    match joined report disturbance with
    | .error reason =>
      ⟨s, .error (.grammarFailure language ("parse task failed: " ++ reason)), report.events⟩
    | .ok report => s.conclude report

/-- Where an awaited build stands when it is first looked at. -/
inductive Poll where
  | ready (report : BuildReport)
  /-- A worker has the job, and the parser that was taken from the session. -/
  | pending (s : Session) (parser : Parser)

/-- Begin an awaited build. -/
def poll (s : Session) (disturbance : Disturbance) : Poll :=
  if s.built.isSome then .ready ⟨s, .ok (), []⟩
  else
    match s.takeParser with
    | .error e => .ready ⟨s, .error e, []⟩
    | .ok (parser, s) =>
      if s.document.settings.parseOnWorker then
        .pending s parser
      else
        .ready (s.conclude (s.job.run parser s.flags disturbance))

/-- Build, and let a worker do it if the settings say so. -/
def buildAwaited (s : Session) (disturbance : Disturbance) : BuildReport :=
  match s.poll disturbance with
  | .ready report => report
  | .pending s parser => s.await parser disturbance

/-- Build where it is called. -/
def buildBlocking (s : Session) (disturbance : Disturbance) : BuildReport :=
  if s.built.isSome then ⟨s, .ok (), []⟩
  else
    match s.takeParser with
    | .error e => ⟨s, .error e, []⟩
    | .ok (parser, s) => s.conclude (s.job.run parser s.flags disturbance)

/-- Build by the given route, disturbed or not. -/
def buildUnder (s : Session) (disturbance : Disturbance) : BuildRoute → BuildReport
  | .awaited => s.buildAwaited disturbance
  | .blocking => s.buildBlocking disturbance

/-- Build undisturbed. -/
def build (s : Session) (route : BuildRoute) : BuildReport :=
  s.buildUnder .nothing route

/-- Await a build and dispose through the first handle while a worker has it, or after it if it did
not have to wait. -/
def buildDisposedInFlight (s : Session) : BuildReport :=
  match s.poll .nothing with
  | .ready report => { report with session := report.session.disposeBy report.session.handle }
  | .pending s parser => (s.disposeBy s.handle).await parser .nothing

end Session

end StatementOutline
