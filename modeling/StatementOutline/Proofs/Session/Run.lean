import StatementOutline.Proofs.Session.Build
import StatementOutline.Session.Step

/-!
# Whole runs of a session

Whatever a step is, most of a session stays as it is (`Kept`): the document, the token and the
handles that share it; the flag never goes down, and an empty slot is not filled again. And little
can become of the outline (`Outcome`): one is in place, the one the session held or the forest of
its document, or it is as before, or the session lets go of it. What these keep is kept by every run
(`Sound.run_invariant`). So a session holds no outline but the forest of its document (`Sound.run`),
handles tell the same as the session, which steps dispose it can be said exactly
(`Sound.disposed_step_iff`), and what it shows does not depend on how it came there
(`run_coherent`).
-/

namespace StatementOutline.Session

variable {s u v : Session} {d : Document} {action : Step} {result : StepResult}
  {disturbance : Disturbance} {report : BuildReport}

/-! ## What a step keeps -/

/-- What stays of `s` in `u`. -/
structure Kept (s u : Session) : Prop where
  document_eq : u.document = s.document
  token_eq : u.token = s.token
  handle_eq : u.handle = s.handle
  copies_share : ∀ handle ∈ u.copies, handle ∈ s.copies ∨ handle.token = s.token
  parser_mem : ∀ parser ∈ u.parser, parser ∈ s.parser
  disposed_mono : s.disposed = true → u.disposed = true

namespace Kept

theorem refl (s : Session) : s.Kept s :=
  ⟨rfl, rfl, rfl, fun _ h => .inl h, fun _ h => h, id⟩

theorem trans (h : s.Kept u) (h' : u.Kept v) : s.Kept v where
  document_eq := h'.document_eq.trans h.document_eq
  token_eq := h'.token_eq.trans h.token_eq
  handle_eq := h'.handle_eq.trans h.handle_eq
  copies_share handle hv := by
    rcases h'.copies_share handle hv with hu | hu
    · exact h.copies_share handle hu
    · exact .inr (hu.trans h.token_eq)
  parser_mem parser hv := h.parser_mem parser (h'.parser_mem parser hv)
  disposed_mono hd := h'.disposed_mono (h.disposed_mono hd)

theorem withoutParser (s : Session) : s.Kept s.withoutParser :=
  ⟨rfl, rfl, rfl, fun _ h => .inl h, nofun, id⟩

theorem withBuilt (s : Session) (built : Option Outline) : s.Kept { s with built } :=
  ⟨rfl, rfl, rfl, fun _ h => .inl h, fun _ h => h, id⟩

/-- A handle puts up a flag, its own or another's, and does nothing else. -/
theorem disposeBy (s : Session) (handle : Handle) : s.Kept (s.disposeBy handle) :=
  ⟨rfl, rfl, rfl, fun _ h => .inl h, fun _ h => h,
    fun hd => Flags.isUp_raise_of_isUp hd handle.token⟩

theorem dispose (s : Session) : s.Kept s.dispose :=
  ⟨rfl, rfl, rfl, fun _ h => .inl h, nofun, fun _ => s.flags.isUp_raise s.token⟩

theorem drop (s : Session) : s.Kept s.drop :=
  ⟨rfl, rfl, rfl, fun _ h => .inl h, fun _ h => h, fun _ => s.flags.isUp_raise s.token⟩

/-- The two handles that are given out on the way have the token of the session. -/
theorem disposeByCopy (s : Session) : s.Kept s.disposeByCopy where
  document_eq := rfl
  token_eq := rfl
  handle_eq := rfl
  copies_share handle h := by
    rcases List.mem_cons.1 h with rfl | h
    · exact .inr rfl
    · rcases List.mem_cons.1 h with rfl | h
      · exact .inr rfl
      · exact .inl h
  parser_mem _ h := h
  disposed_mono hd := Flags.isUp_raise_of_isUp hd _

end Kept

/-- By whichever end, a build keeps the document and the token and puts no flag down. -/
theorem BuildEnds.kept (h : s.BuildEnds disturbance report) : s.Kept report.session := by
  cases h with
  | already hb hreport => exact hreport ▸ .refl s
  | refused hb hd hreport => exact hreport ▸ .refl s
  | disposed hb hd h hsession =>
    rw [hsession]
    exact (Kept.withoutParser s).trans (.disposeBy _ _)
  | failed hb hd h language reason hsession =>
    rw [hsession]
    exact .withoutParser s
  | finished hb hd h hreport =>
    rw [hreport]
    exact (Kept.withoutParser s).trans (.withBuilt _ _)

/-! ## What a step can do -/

/-- An outline is in place after a step: the one the session held, or else the forest of its
document, if it is not disposed. -/
def Holding (s : Session) (built : Option Outline) : Prop :=
  s.built.isSome = true ∧ built = s.built ∨
    s.built = none ∧ s.disposed = false ∧ built = some s.document.forest

/-- What can become of the outline by a step, and what the step then reports. A build that is
reported leaves an outline in place, though a handle may put up the flag before the report. -/
inductive Outcome (s u : Session) : Step → StepResult → Prop
  | holds {action : Step} (ha : action ≠ .dispose) (hb : s.Holding u.built)
      (hdropped : u.dropped = s.dropped) : Outcome s u action .built
  | keeps {action : Step} {result : StepResult} (ha : action ≠ .dispose) (hr : result ≠ .built)
      (hb : u.built = s.built) (hdropped : u.dropped = s.dropped) : Outcome s u action result
  | cleared (hb : u.built = none) (hdropped : u.dropped = s.dropped) : Outcome s u .dispose .nothing
  | left (hb : u.built = s.built) (hd : u.disposed = true) : Outcome s u .drop (.dropped true)

/-- What each end of a build means for the outline and the reply. -/
theorem BuildEnds.outcome (h : s.BuildEnds disturbance report) (ha : action ≠ .dispose) :
    s.Outcome report.session action (replyToBuild report).2.result := by
  simp only [replyToBuild, reply]
  cases h with
  | already hb hreport =>
    subst hreport
    exact .holds ha (.inl ⟨hb, rfl⟩) rfl
  | refused hb hd hreport =>
    subst hreport
    exact .keeps ha nofun rfl rfl
  | disposed hb hd h hsession hresult =>
    rw [hsession, hresult]
    exact .keeps ha nofun rfl rfl
  | failed hb hd h language reason hsession hresult =>
    rw [hsession, hresult]
    exact .keeps ha nofun rfl rfl
  | finished hb hd h hreport =>
    subst hreport
    exact .holds ha (.inr ⟨hb, hd, rfl⟩) rfl

/-- A handle that puts up the flag behind a step leaves the outline as it is. -/
theorem Outcome.disposeBy (h : s.Outcome u action result) (handle : Handle) :
    s.Outcome (u.disposeBy handle) action result := by
  cases h with
  | holds ha hb hdropped => exact .holds ha hb hdropped
  | keeps ha hr hb hdropped => exact .keeps ha hr hb hdropped
  | cleared hb hdropped => exact .cleared hb hdropped
  | left hb hd => exact .left hb ((Kept.disposeBy u handle).disposed_mono hd)

/-- An awaited build is over when it is first looked at, or else the parser is taken and a worker
has the job. -/
theorem poll_cases (s : Session) : s.poll .nothing = .ready (s.build .awaited) ∨
    s.built = none ∧ s.disposed = false ∧ s.document.settings.parseOnWorker = true ∧
      ∃ parser, s.poll .nothing = .pending s.withoutParser parser := by
  cases hpoll : s.poll .nothing with
  | ready report =>
    left
    simp [build, buildUnder, buildAwaited, hpoll]
  | pending u parser =>
    right
    unfold poll at hpoll
    split at hpoll
    · cases hpoll
    · next hb =>
      cases hd : s.disposed with
      | true => simp [takeParser_of_disposed hd] at hpoll
      | false =>
        simp only [takeParser_of_live hd] at hpoll
        split at hpoll
        · next hworker =>
          cases hpoll
          exact ⟨by simpa using hb, rfl, hworker, _, rfl⟩
        · cases hpoll

/-- A worker has the job when the first handle disposes the session: the caller sees the flag and
fails, and the job stops before it parses anything. -/
theorem await_of_disposeBy (hshares : s.handle.token = s.token) (parser : Parser) :
    (s.disposeBy s.handle).await parser .nothing =
      ⟨s.disposeBy s.handle, .error .disposed, [.disposedDuringBuild s.document.language]⟩ := by
  have hup : (s.disposeBy s.handle).disposed = true := disposed_disposeBy hshares
  have hrun : (s.disposeBy s.handle).job.run parser (s.disposeBy s.handle).flags .nothing =
      ⟨.error .disposed, [], (s.disposeBy s.handle).flags⟩ :=
    @Job.run_of_isUp (s.disposeBy s.handle).job _ hup parser
  rw [await_of_disposed]
  · rw [hrun]
    rfl
  · rw [hrun]
    exact hup

/-- Disposed while a worker has it, a build fails and leaves the session without its parser. A build
that is over by then goes as any other, and the session is disposed behind it. -/
theorem buildDisposedInFlight_cases (hshares : s.handle.token = s.token) :
    s.buildDisposedInFlight = { s.build .awaited with
        session := (s.build .awaited).session.disposeBy (s.build .awaited).session.handle } ∨
    s.built = none ∧ s.disposed = false ∧ s.document.settings.parseOnWorker = true ∧
      s.buildDisposedInFlight = ⟨s.withoutParser.disposeBy s.handle, .error .disposed,
        [.disposedDuringBuild s.document.language]⟩ := by
  rcases s.poll_cases with hready | ⟨hb, hd, hworker, parser, hpending⟩
  · left
    simp [buildDisposedInFlight, hready]
  · refine .inr ⟨hb, hd, hworker, ?_⟩
    simp only [buildDisposedInFlight, hpending]
    exact await_of_disposeBy (s := s.withoutParser) hshares parser

/-- One case for each step. A build is told by how it ends, and one that a worker has when its
caller disposes the session or gives up waiting is no build of the other kinds. -/
theorem liveStep_spec (hshares : s.handle.token = s.token) (action : Step) :
    s.Kept (s.liveStep action).1 ∧
      s.Outcome (s.liveStep action).1 action (s.liveStep action).2.result := by
  have hbuild : ∀ disturbance route {action : Step}, action ≠ .dispose →
      s.Kept (replyToBuild (s.buildUnder disturbance route)).1 ∧
        s.Outcome (replyToBuild (s.buildUnder disturbance route)).1 action
          (replyToBuild (s.buildUnder disturbance route)).2.result := by
    intro disturbance route action ha
    have hends := s.buildUnder_ends disturbance route
    exact ⟨hends.kept, hends.outcome ha⟩
  cases action with
  | build route => exact hbuild .nothing route nofun
  | buildDisposedInFlight =>
    simp only [liveStep]
    rcases buildDisposedInFlight_cases hshares with hready | ⟨hb, -, -, hpending⟩
    · obtain ⟨hkept, houtcome⟩ := hbuild .nothing .awaited
        (nofun : Step.buildDisposedInFlight ≠ .dispose)
      rw [hready]
      exact ⟨hkept.trans (.disposeBy _ _), houtcome.disposeBy _⟩
    · rw [hpending]
      exact ⟨(Kept.withoutParser s).trans (.disposeBy _ _), .keeps nofun nofun rfl rfl⟩
  | buildAbandoned =>
    simp only [liveStep, abandon]
    rcases s.poll_cases with hready | ⟨-, -, -, parser, hpending⟩
    · rw [hready]
      exact hbuild .nothing .awaited nofun
    · rw [hpending]
      exact ⟨.withoutParser s, .keeps nofun nofun rfl rfl⟩
  | buildDisposedAtCollapse n route => exact hbuild (.atCollapse n) route nofun
  | dispose => exact ⟨.dispose s, .cleared rfl rfl⟩
  | disposeByHandle => exact ⟨.disposeBy s s.handle, .keeps nofun nofun rfl rfl⟩
  | disposeByHandleCopy => exact ⟨.disposeByCopy s, .keeps nofun nofun rfl rfl⟩
  | drop => exact ⟨.drop s, .left rfl (s.flags.isUp_raise s.token)⟩
  | ask q => exact ⟨.refl s, .keeps nofun nofun rfl rfl⟩

theorem step_of_dropped (h : s.dropped = true) (action : Step) : (s.step action).1 = s := by
  simp [step, h]

theorem step_of_not_dropped (h : s.dropped = false) (action : Step) :
    s.step action = s.liveStep action := by
  simp [step, h]

/-! ## What every run keeps -/

/-- The session works on `d`, with a parser for its language if it has one, and holds no outline but
the forest of `d`. It shares its token with all its handles, and is disposed if it was dropped. -/
structure Sound (d : Document) (s : Session) : Prop where
  document_eq : s.document = d
  parser_language : ∀ parser ∈ s.parser, parser.language = d.language
  built_eq : ∀ o ∈ s.built, o = d.forest
  handle_shares : s.handle.token = s.token
  copies_share : ∀ handle ∈ s.copies, handle.token = s.token
  disposed_of_dropped : s.dropped = true → s.disposed = true

theorem sound_start (d : Document) : Sound d (start d).1 where
  document_eq := rfl
  parser_language parser h := by
    cases h
    rfl
  built_eq o ho := by cases ho
  handle_shares := rfl
  copies_share := nofun
  disposed_of_dropped h := by cases h

/-- No step puts anything but the forest in place. -/
theorem Outcome.built_eq (hu : s.Outcome u action result)
    (h : ∀ o ∈ s.built, o = s.document.forest) : ∀ o ∈ u.built, o = s.document.forest := by
  cases hu with
  | holds ha hb hdropped =>
    rcases hb with ⟨-, hb⟩ | ⟨-, -, hb⟩
    · rwa [hb]
    · rw [hb]
      intro o ho
      cases ho
      rfl
  | keeps ha hr hb hdropped => rwa [hb]
  | cleared hb hdropped =>
    rw [hb]
    nofun
  | left hb hd => rwa [hb]

theorem Outcome.disposed_of_dropped (hu : s.Outcome u action result)
    (hmono : s.disposed = true → u.disposed = true) (h : s.dropped = true → s.disposed = true)
    (hdropped : u.dropped = true) : u.disposed = true := by
  cases hu with
  | holds ha hb heq => exact hmono (h (heq ▸ hdropped))
  | keeps ha hr hb heq => exact hmono (h (heq ▸ hdropped))
  | cleared hb heq => exact hmono (h (heq ▸ hdropped))
  | left hb hd => exact hd

/-- A step that keeps what it has to, and does to the outline what it can, leads to a sound
session. -/
theorem Sound.outcome (h : Sound d s) (hk : s.Kept u) (hu : s.Outcome u action result) :
    Sound d u where
  document_eq := hk.document_eq.trans h.document_eq
  parser_language parser hp := h.parser_language parser (hk.parser_mem parser hp)
  built_eq := by
    obtain ⟨rfl, -, hbuilt, -⟩ := h
    exact hu.built_eq hbuilt
  handle_shares := by rw [hk.handle_eq, hk.token_eq, h.handle_shares]
  copies_share handle hh := by
    rw [hk.token_eq]
    rcases hk.copies_share handle hh with hs | hs
    · exact h.copies_share handle hs
    · exact hs
  disposed_of_dropped := hu.disposed_of_dropped hk.disposed_mono h.disposed_of_dropped

/-- To show that a step keeps a property, it is enough to look at what a step keeps and at its
outcomes. -/
theorem Sound.step_invariant {P : Session → Prop} (hs : Sound d s) (h : P s)
    (hP : ∀ {u result}, s.Kept u → s.Outcome u action result → P u) : P (s.step action).1 := by
  cases hdropped : s.dropped with
  | true => rwa [step_of_dropped hdropped]
  | false =>
    obtain ⟨hk, hu⟩ := liveStep_spec hs.handle_shares action
    rw [step_of_not_dropped hdropped]
    exact hP hk hu

theorem Sound.step (h : Sound d s) (action : Step) : Sound d (s.step action).1 :=
  h.step_invariant h h.outcome

/-- Every session that a run leads to is sound. -/
theorem Sound.run (h : Sound d s) (steps : List Step) : Sound d (s.run steps).1 := by
  induction steps generalizing s with
  | nil => exact h
  | cons action steps ih => exact ih (h.step action)

/-- What every step of a sound session keeps is kept by every run. -/
theorem Sound.run_invariant {P : Session → Prop} (hs : Sound d s) (h : P s)
    (hP : ∀ {s u action result}, P s → s.Kept u → s.Outcome u action result → P u)
    (steps : List Step) : P (s.run steps).1 := by
  induction steps generalizing s with
  | nil => exact h
  | cons action steps ih =>
    have hstep : P (s.step action).1 := hs.step_invariant h (hP h)
    exact ih (hs.step action) hstep

theorem outline_of_disposed (h : s.disposed = true) : s.isBuilt = false ∧ s.outline = .empty := by
  simp [isBuilt, outline, h]

/-- A session that is not disposed shows nothing before a build and the forest after one. -/
theorem Sound.outline_of_live (h : Sound d s) (hd : s.disposed = false) :
    s.isBuilt = false ∧ s.outline = .empty ∨ s.isBuilt = true ∧ s.outline = d.forest := by
  cases hb : s.built with
  | none => simp [isBuilt, outline, hd, hb]
  | some o =>
    have ho := h.built_eq o hb
    simp [isBuilt, outline, hd, hb, ho]

theorem Sound.build_of_live (h : Sound d s) (hd : s.disposed = false) (route : BuildRoute) :
    (s.build route).result = .ok () ∧ (s.build route).session.isBuilt = true ∧
      (s.build route).session.outline = d.forest := by
  obtain ⟨rfl, -, hbuilt, -⟩ := h
  obtain ⟨hresult, hsession, hlive⟩ := Session.build_of_live hd hbuilt route
  exact ⟨hresult, outline_of_built hlive hsession⟩

theorem Sound.takeParser_of_live (h : Sound d s) (hd : s.disposed = false) :
    ∃ parser, s.takeParser = .ok (parser, s.withoutParser) ∧ parser.language = d.language := by
  refine ⟨_, Session.takeParser_of_live hd, ?_⟩
  cases hp : s.parser with
  | none => exact congrArg Document.language h.document_eq
  | some parser => exact h.parser_language parser hp

def assignmentRows : List SyntaxRow :=
  [⟨0, true, "module", none, ⟨0, 5⟩, ⟨0, 0⟩⟩,
    ⟨1, true, "expression_statement", none, ⟨0, 5⟩, ⟨0, 0⟩⟩,
    ⟨2, true, "assignment", none, ⟨0, 5⟩, ⟨0, 0⟩⟩,
    ⟨3, true, "identifier", some "left", ⟨0, 1⟩, ⟨0, 0⟩⟩,
    ⟨3, false, "=", none, ⟨2, 3⟩, ⟨0, 0⟩⟩,
    ⟨3, true, "integer", some "right", ⟨4, 5⟩, ⟨0, 0⟩⟩]

/-- The document `y = 1`. -/
def assignmentDocument : Document :=
  ⟨.python, "y = 1", assignmentRows, ⟨0, 5⟩, {}⟩

end StatementOutline.Session
