import StatementOutline.Proofs.Outline.Halting
import StatementOutline.Session.Basic

/-!
# What a build does

A document has one outline, its `forest`: it follows from language, text, rows, unit and range, and
neither the route of a build nor the other settings have a part in it (`outline_reduction`). A job
ends with the forest, or fails for want of a tree, or is disposed on the way (`Job.run_ends`); and
so a build comes to one of five ends by each of its routes: where it is called (`conclude_ends`), or
waiting for a worker (`await_ends`). With nothing in its way the report of a build is known in full,
events included (`build_eq`).
-/

namespace StatementOutline

/-- The outline of a text over a range, from the rows that its grammar lists. -/
def forestOf (language : Language) (text : String) (rows : List SyntaxRow)
    (encoding : OffsetEncoding) (range : Span) : Outline :=
  (Reduction.walk
    { table := language.rules, tree := .ofRows (.ofText encoding text) rows, range }).outline

namespace Document

variable {d : Document} {signal : StopSignal}

/-- The outline of the document. -/
def forest (d : Document) : Outline :=
  forestOf d.language d.text d.rows d.settings.offsetEncoding d.range

theorem make_eq_ok {languageId text : String} {language : Language} {rows : List SyntaxRow}
    {range : Span} {settings : Settings} (hlang : Language.ofId? languageId = some language)
    (hforward : range.start ≤ range.stop)
    (hinside : range.stop ≤ settings.offsetEncoding.measure text) :
    make languageId text rows range settings = .ok ⟨language, text, rows, range, settings⟩ := by
  simp [make, hlang, RangeValid, length, hforward, hinside]

/-- A signal that is not set by the end leaves the walk with the forest. -/
theorem walk_reduction (h : signal.isSet (d.reduction signal).walk.notes.size = false) :
    (d.reduction signal).walk.stopped = false ∧ (d.reduction signal).walk.outline = d.forest := by
  rw [Reduction.walk_eq_undisturbed h 256]
  exact ⟨Reduction.stopped_walk_never rfl, rfl⟩

/-- The reduction of a document is its forest, whatever the interval of looks. -/
theorem outline_reduction (d : Document) : (d.reduction .never).outline = .ok d.forest := by
  have hnever : StopSignal.never.isSet (d.reduction .never).walk.notes.size = false := rfl
  obtain ⟨hstopped, houtline⟩ := walk_reduction hnever
  simp [Reduction.outline, hstopped, houtline]

/-- The collapses that a full walk of the document notes. -/
def collapses (d : Document) : List CollapseNote :=
  (Reduction.walk
    { table := d.language.rules, tree := d.tree, range := d.range }).notes.toList

theorem notes_reduction (d : Document) :
    (d.reduction .never).walk.notes.toList = d.collapses := by
  have hnever : StopSignal.never.isSet (d.reduction .never).walk.notes.size = false := rfl
  rw [Reduction.walk_eq_undisturbed hnever 256]
  rfl

/-- Whether a signal is set by the end can be told from the full walk. -/
theorem isSet_reduction (d : Document) (signal : StopSignal) :
    signal.isSet (d.reduction signal).walk.notes.size = signal.isSet d.collapses.length := by
  have hsize : (d.reduction .never).walk.notes.size = d.collapses.length := by
    rw [← notes_reduction, Array.length_toList]
  rw [← hsize]
  exact (d.reduction signal).isSet_walk

/-- What a build logs that puts the forest in place. -/
def buildEvents (d : Document) : List Event :=
  d.collapses.map .collapsed ++
    [.built d.language d.range d.forest.size d.forest.roots.size]

end Document

/-- The disturbance lets a build fail without disposing its session. -/
def Disturbance.IsFault : Disturbance → Prop
  | noTree _ | jobLost _ => True
  | nothing | beforeParse | duringParse | atCollapse _ | atEnd => False

/-- The disturbance disposes the session of a build on the document before the build is over. -/
def Disturbance.Disposes (d : Document) : Disturbance → Prop
  | beforeParse | duringParse | atEnd => True
  | atCollapse n => 0 < n ∧ n ≤ d.collapses.length
  | nothing | noTree _ | jobLost _ => False

/-- The disturbance leaves a job to its walk of the tree. -/
def Disturbance.LeavesWalk : Disturbance → Prop
  | beforeParse | duringParse | noTree _ => False
  | nothing | atCollapse _ | atEnd | jobLost _ => True

/-- Whether a collapse puts the flag up can be told from the full walk. -/
theorem Disturbance.isSet_atCollapse_iff {d : Document} {n : Nat} :
    (StopSignal.atCollapse n).isSet (d.reduction (.atCollapse n)).walk.notes.size = true ↔
      (atCollapse n).Disposes d := by
  rw [Document.isSet_reduction]
  simp [StopSignal.isSet, Disposes]

namespace Job

variable {job : Job} {parser : Parser} {flags : Flags} {disturbance : Disturbance}

/-- The flag is up before the job starts: it does nothing. -/
theorem run_of_isUp (hup : flags.isUp job.token = true) (parser : Parser) :
    job.run parser flags .nothing = ⟨.error .disposed, [], flags⟩ := by
  simp [run, hup]

/-- Past the two looks at the flag around the parse, what a job comes to is what its walk comes
to. -/
theorem run_eq_walk (hdown : flags.isUp job.token = false) (parser : Parser)
    (hwalk : disturbance.LeavesWalk) :
    job.run parser flags disturbance =
      let r := job.document.reduction disturbance.signal
      ⟨r.outline, r.walk.notes.toList.map .collapsed,
        flags.raiseIf job.token
          (disturbance.signal.isSet r.walk.notes.size || disturbance = .atEnd)⟩ := by
  have hbefore : disturbance ≠ .beforeParse := by
    rintro rfl
    exact hwalk
  have hduring : disturbance ≠ .duringParse := by
    rintro rfl
    exact hwalk
  have hparse : parser.parse job.document disturbance = .ok job.document.tree := by
    cases disturbance with
    | noTree reason => exact hwalk.elim
    | _ => rfl
  simp only [run, hbefore, hduring, decide_false, Flags.raiseIf_false, hdown, hparse]
  rfl

/-- What a job can come to when the flag is down at first. Disposal may come too late for the job to
see it; then it ends with an outline, but the flag is up. -/
inductive Ends (job : Job) (flags : Flags) (disturbance : Disturbance) (report : JobReport) : Prop
  | disposed (h : disturbance.Disposes job.document)
      (hflags : report.flags = flags.raise job.token)
      (herror : ∀ e, report.result = .error e → e = .disposed)
  | failed (language : Language) (reason : String) (h : disturbance = .noTree reason)
      (hreport : report = ⟨.error (.grammarFailure language reason), [], flags⟩)
  | finished (h : ¬ disturbance.Disposes job.document) (hreport : report =
      ⟨.ok job.document.forest, job.document.collapses.map .collapsed, flags⟩)

/-- A walk that is not disposed on the way ends in the forest, and the flag stays as it is. -/
theorem run_of_not_disposes (hdown : flags.isUp job.token = false) (parser : Parser)
    (hwalk : disturbance.LeavesWalk) (h : ¬ disturbance.Disposes job.document) :
    job.run parser flags disturbance =
      ⟨.ok job.document.forest, job.document.collapses.map .collapsed, flags⟩ := by
  have hset : disturbance.signal.isSet
      (job.document.reduction disturbance.signal).walk.notes.size = false := by
    cases disturbance with
    | atCollapse n => exact Bool.not_eq_true _ ▸ mt Disturbance.isSet_atCollapse_iff.1 h
    | _ => rfl
  have hend : disturbance ≠ .atEnd := by
    rintro rfl
    exact h trivial
  obtain ⟨hstopped, houtline⟩ := Document.walk_reduction hset
  have hnotes : (job.document.reduction disturbance.signal).walk.notes.toList =
      job.document.collapses := by
    rw [Reduction.walk_eq_undisturbed hset 256]
    rfl
  simp [run_eq_walk hdown parser hwalk, Reduction.outline, hstopped, houtline, hnotes, hset, hend]

/-- Either the flag is as it was, or it was put up on the way. -/
theorem Ends.flags_cases {report : JobReport} (h : job.Ends flags disturbance report) :
    ¬ disturbance.Disposes job.document ∧ report.flags = flags ∨
      disturbance.Disposes job.document ∧ report.flags = flags.raise job.token := by
  cases h with
  | disposed h hflags herror => exact .inr ⟨h, hflags⟩
  | failed language reason h hreport =>
    subst h hreport
    exact .inl ⟨id, rfl⟩
  | finished h hreport => exact .inl ⟨h, congrArg JobReport.flags hreport⟩

/-- The cases are the moments at which a job can be disturbed. Of a disposal at a collapse the walk
tells whether it comes about. -/
theorem run_ends (hdown : flags.isUp job.token = false) (parser : Parser)
    (disturbance : Disturbance) :
    job.Ends flags disturbance (job.run parser flags disturbance) := by
  have hwalk : ∀ r : Reduction, ∀ e, r.outline = .error e → e = .disposed := by
    intro r e he
    unfold Reduction.outline at he
    split at he
    · cases he
      rfl
    · cases he
  cases disturbance with
  | nothing => exact .finished id (run_of_not_disposes hdown parser trivial id)
  | beforeParse =>
    have hrun : job.run parser flags .beforeParse =
        ⟨.error .disposed, [], flags.raise job.token⟩ := by
      simp [run]
    rw [hrun]
    exact .disposed trivial rfl fun e he => by cases he; rfl
  | duringParse =>
    have hrun : job.run parser flags .duringParse =
        ⟨.error .disposed, [], flags.raise job.token⟩ := by
      simp [run, Parser.parse, hdown]
    rw [hrun]
    exact .disposed trivial rfl fun e he => by cases he; rfl
  | atCollapse n =>
    have hleaves : (Disturbance.atCollapse n).LeavesWalk := trivial
    by_cases h : (Disturbance.atCollapse n).Disposes job.document
    · rw [run_eq_walk hdown parser hleaves]
      refine .disposed h ?_ (hwalk _)
      simp [Disturbance.signal, Disturbance.isSet_atCollapse_iff.2 h]
    · exact .finished h (run_of_not_disposes hdown parser hleaves h)
  | atEnd =>
    have hleaves : Disturbance.atEnd.LeavesWalk := trivial
    rw [run_eq_walk hdown parser hleaves]
    exact .disposed trivial (by simp) (hwalk _)
  | noTree reason =>
    refine .failed parser.language reason rfl ?_
    simp [run, Parser.parse, hdown]
  | jobLost reason => exact .finished id (run_of_not_disposes hdown parser trivial id)

end Job

namespace Session

variable {s : Session} {disturbance : Disturbance} {route : BuildRoute}

/-! ## How a build can end -/

theorem takeParser_of_disposed (hd : s.disposed = true) : s.takeParser = .error .disposed := by
  simp [takeParser, hd]

/-- There is always a parser to take: where the slot is empty, a new one. -/
theorem takeParser_of_live (hd : s.disposed = false) :
    s.takeParser = .ok (s.parser.getD ⟨s.document.language⟩, s.withoutParser) := by
  simp [takeParser, hd]

/-- The five ends of a build. Only a disturbance disposes the session on the way or makes the build
fail; and only a build that got as far as taking the parser leaves the slot empty. -/
inductive BuildEnds (s : Session) (disturbance : Disturbance) (report : BuildReport) : Prop
  | already (hb : s.built.isSome = true) (hreport : report = ⟨s, .ok (), []⟩)
  | refused (hb : s.built = none) (hd : s.disposed = true)
      (hreport : report = ⟨s, .error .disposed, []⟩)
  | disposed (hb : s.built = none) (hd : s.disposed = false)
      (h : disturbance.Disposes s.document)
      (hsession : report.session = s.withoutParser.disposeBy s.newHandle)
      (hresult : report.result = .error .disposed)
  | failed (hb : s.built = none) (hd : s.disposed = false) (h : disturbance.IsFault)
      (language : Language) (reason : String) (hsession : report.session = s.withoutParser)
      (hresult : report.result = .error (.grammarFailure language reason))
  | finished (hb : s.built = none) (hd : s.disposed = false)
      (h : ¬ disturbance.Disposes s.document)
      (hreport : report = ⟨{ s.withoutParser with built := some s.document.forest }, .ok (),
        s.document.buildEvents⟩)

theorem install_of_disposed (hd : s.disposed = true) (o : Outline) :
    s.install o = ⟨s, .error .disposed, [.discarded s.document.language]⟩ := by
  simp [install, hd]

theorem install_of_live (hd : s.disposed = false) (o : Outline) :
    s.install o = ⟨{ s with built := some o }, .ok (),
      [.built s.document.language s.document.range o.size o.roots.size]⟩ := by
  simp [install, hd]

theorem conclude_of_error {report : JobReport} {e : BuildError} (h : report.result = .error e) :
    s.conclude report = ⟨s.withFlags report.flags, .error e, report.events⟩ := by
  simp [conclude, h]

theorem conclude_of_ok {report : JobReport} {o : Outline} (h : report.result = .ok o) :
    s.conclude report = ((s.withFlags report.flags).install o).behind report.events := by
  simp [conclude, h]

/-- Every handle with the token of a session disposes it. -/
theorem disposed_disposeBy {handle : Handle} (h : handle.token = s.token) :
    (s.disposeBy handle).disposed = true := by
  simp [disposeBy, disposed, Handle.dispose, h]

/-- A job that left the flag up has disposed the session of the build. -/
theorem withFlags_of_raised {report : JobReport} (h : report.flags = s.flags.raise s.token) :
    s.withFlags report.flags = s.disposeBy s.newHandle ∧
      (s.withFlags report.flags).disposed = true := by
  have hsession : s.withFlags report.flags = s.disposeBy s.newHandle := by
    rw [h]
    rfl
  rw [hsession]
  exact ⟨rfl, disposed_disposeBy rfl⟩

/-- A build that runs its job where it is called, awaited or not. -/
theorem conclude_ends (hb : s.built = none) (hd : s.disposed = false) {report : JobReport}
    (h : s.job.Ends s.flags disturbance report) :
    s.BuildEnds disturbance (s.withoutParser.conclude report) := by
  cases h with
  | disposed h hflags herror =>
    obtain ⟨hsession, hdisposed⟩ := withFlags_of_raised (s := s.withoutParser) hflags
    cases hresult : report.result with
    | error e =>
      obtain rfl := herror e hresult
      rw [conclude_of_error hresult]
      exact .disposed hb hd h hsession rfl
    | ok o =>
      rw [conclude_of_ok hresult, install_of_disposed hdisposed]
      exact .disposed hb hd h hsession rfl
  | failed language reason h hreport =>
    subst h hreport
    exact .failed hb hd trivial language reason rfl rfl
  | finished h hreport =>
    subst hreport
    have hlive : s.withoutParser.disposed = false := hd
    exact .finished hb hd h
      ((conclude_of_ok rfl).trans (congrArg (BuildReport.behind · _) (install_of_live hlive _)))

/-- The waiting caller finds the flag up and does not look at the job. -/
theorem await_of_disposed {parser : Parser}
    (h : (s.withFlags (s.job.run parser s.flags disturbance).flags).disposed = true) :
    s.await parser disturbance =
      ⟨s.withFlags (s.job.run parser s.flags disturbance).flags, .error .disposed,
        (s.job.run parser s.flags disturbance).events ++
          [.disposedDuringBuild s.document.language]⟩ := by
  simp [await, h]

theorem await_of_lost {parser : Parser} {reason : String}
    (h : (s.withFlags (s.job.run parser s.flags (.jobLost reason)).flags).disposed = false) :
    s.await parser (.jobLost reason) =
      ⟨s.withFlags (s.job.run parser s.flags (.jobLost reason)).flags,
        .error (.grammarFailure s.document.language ("parse task failed: " ++ reason)),
        (s.job.run parser s.flags (.jobLost reason)).events⟩ := by
  simp [await, h, joined]

/-- With the flag down, a worker that has not lost the job hands over what the caller would have had
from running it. -/
theorem await_eq_conclude {parser : Parser}
    (h : (s.withFlags (s.job.run parser s.flags disturbance).flags).disposed = false)
    (hjob : ∀ reason, disturbance ≠ .jobLost reason) :
    s.await parser disturbance = s.conclude (s.job.run parser s.flags disturbance) := by
  have hjoined : ∀ report, joined report disturbance = .ok report := by
    intro report
    cases disturbance with
    | jobLost reason => exact absurd rfl (hjob reason)
    | _ => rfl
  simp only [await, h, hjoined]
  rfl

/-- A build that waits for a worker. It differs from the others in what it logs of a disposal, and
in that its job can be lost. -/
theorem await_ends (hb : s.built = none) (hd : s.disposed = false) (parser : Parser)
    (disturbance : Disturbance) :
    s.BuildEnds disturbance (s.withoutParser.await parser disturbance) := by
  have hends : s.job.Ends s.flags disturbance
      (s.withoutParser.job.run parser s.withoutParser.flags disturbance) :=
    s.job.run_ends hd parser disturbance
  rcases hends.flags_cases with ⟨h, hflags⟩ | ⟨h, hflags⟩
  · have hsession : s.withoutParser.withFlags
        (s.withoutParser.job.run parser s.withoutParser.flags disturbance).flags =
          s.withoutParser := by
      rw [hflags]
      rfl
    have hlive : (s.withoutParser.withFlags
        (s.withoutParser.job.run parser s.withoutParser.flags disturbance).flags).disposed =
          false := by
      rw [hsession]
      exact hd
    cases disturbance with
    | jobLost reason =>
      rw [await_of_lost hlive]
      exact .failed hb hd trivial _ _ hsession rfl
    | _ =>
      rw [await_eq_conclude hlive nofun]
      exact conclude_ends hb hd hends
  · obtain ⟨hsession, hdisposed⟩ := withFlags_of_raised (s := s.withoutParser) hflags
    rw [await_of_disposed hdisposed]
    exact .disposed hb hd h hsession rfl

/-- Every build comes to one of the five ends, by whatever route. -/
theorem buildUnder_ends (s : Session) (disturbance : Disturbance) (route : BuildRoute) :
    s.BuildEnds disturbance (s.buildUnder disturbance route) := by
  cases hb : s.built with
  | some o =>
    have hsome : s.built.isSome = true := by simp [hb]
    cases route with
    | awaited => exact .already hsome (by simp [buildUnder, buildAwaited, poll, hsome])
    | blocking => exact .already hsome (by simp [buildUnder, buildBlocking, hsome])
  | none =>
    cases hd : s.disposed with
    | true =>
      have htake := takeParser_of_disposed hd
      cases route with
      | awaited => exact .refused hb hd (by simp [buildUnder, buildAwaited, poll, hb, htake])
      | blocking => exact .refused hb hd (by simp [buildUnder, buildBlocking, hb, htake])
    | false =>
      have htake := takeParser_of_live hd
      have hrun := s.job.run_ends hd (s.parser.getD ⟨s.document.language⟩) disturbance
      cases route with
      | blocking =>
        simp only [buildUnder, buildBlocking, hb, htake]
        exact conclude_ends hb hd hrun
      | awaited =>
        simp only [buildUnder, buildAwaited, poll, hb, htake]
        cases hworker : s.withoutParser.document.settings.parseOnWorker with
        | true => exact await_ends hb hd _ disturbance
        | false => exact conclude_ends hb hd hrun

/-- The report of an undisturbed build: neither the route nor the settings but the unit show in
it. -/
theorem build_eq (s : Session) (route : BuildRoute) : s.build route =
    if s.built.isSome then ⟨s, .ok (), []⟩
    else if s.disposed then ⟨s, .error .disposed, []⟩
    else ⟨{ s.withoutParser with built := some s.document.forest }, .ok (),
      s.document.buildEvents⟩ := by
  rw [build]
  cases s.buildUnder_ends .nothing route with
  | already hb hreport => simpa [hb] using hreport
  | refused hb hd hreport => simpa [hb, hd] using hreport
  | disposed hb hd h => exact h.elim
  | failed hb hd h => exact h.elim
  | finished hb hd h hreport => simpa [hb, hd] using hreport

/-- A disturbance that neither disposes the session of a first build nor makes the build fail does
not show. -/
theorem buildUnder_eq_build (hb : s.built = none) (h : ¬ disturbance.Disposes s.document)
    (hfault : ¬ disturbance.IsFault) (route : BuildRoute) :
    s.buildUnder disturbance route = s.build route := by
  rw [build_eq, hb]
  cases s.buildUnder_ends disturbance route with
  | already hsome => simp [hb] at hsome
  | refused _ hd hreport => simpa [hd] using hreport
  | disposed _ _ hdisposes => exact absurd hdisposes h
  | failed _ _ hisFault => exact absurd hisFault hfault
  | finished _ hd _ hreport => simpa [hd] using hreport

/-- A session that is not disposed, and holds no outline but the forest of its document, builds by
every route and then holds the forest. -/
theorem build_of_live (hd : s.disposed = false) (hb : ∀ o ∈ s.built, o = s.document.forest)
    (route : BuildRoute) : (s.build route).result = .ok () ∧
      (s.build route).session.built = some s.document.forest ∧
      (s.build route).session.disposed = false := by
  rw [build_eq]
  cases hbuilt : s.built with
  | some o =>
    obtain rfl := hb o hbuilt
    simp [hbuilt, hd]
  | none =>
    simp only [hd]
    exact ⟨rfl, rfl, hd⟩

theorem outline_of_built {o : Outline} (hd : s.disposed = false) (hb : s.built = some o) :
    s.isBuilt = true ∧ s.outline = o := by
  simp [isBuilt, outline, hd, hb]

/-- Two statements that collapse, one on each line. -/
def oneLiners : Document where
  language := .python
  text := "if x: y\nif z: w"
  rows := [⟨0, true, "module", none, ⟨0, 15⟩, ⟨0, 1⟩⟩,
    ⟨1, true, "if_statement", none, ⟨0, 7⟩, ⟨0, 0⟩⟩,
    ⟨2, false, "if", none, ⟨0, 2⟩, ⟨0, 0⟩⟩,
    ⟨2, true, "identifier", some "condition", ⟨3, 4⟩, ⟨0, 0⟩⟩,
    ⟨2, false, ":", none, ⟨4, 5⟩, ⟨0, 0⟩⟩,
    ⟨2, true, "block", some "consequence", ⟨6, 7⟩, ⟨0, 0⟩⟩,
    ⟨3, true, "expression_statement", none, ⟨6, 7⟩, ⟨0, 0⟩⟩,
    ⟨1, true, "if_statement", none, ⟨8, 15⟩, ⟨1, 1⟩⟩,
    ⟨2, false, "if", none, ⟨8, 10⟩, ⟨1, 1⟩⟩,
    ⟨2, true, "identifier", some "condition", ⟨11, 12⟩, ⟨1, 1⟩⟩,
    ⟨2, false, ":", none, ⟨12, 13⟩, ⟨1, 1⟩⟩,
    ⟨2, true, "block", some "consequence", ⟨14, 15⟩, ⟨1, 1⟩⟩,
    ⟨3, true, "expression_statement", none, ⟨14, 15⟩, ⟨1, 1⟩⟩]
  range := ⟨0, 15⟩
  settings := {}

end Session

end StatementOutline
