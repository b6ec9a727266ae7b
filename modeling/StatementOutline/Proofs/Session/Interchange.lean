import Mathlib.Data.List.Forall2
import StatementOutline.Proofs.Session.Build
import StatementOutline.Session.Step

/-!
# Builds by other routes

A session can build on a worker, awaited where it is called, or blocking, and its walk can look at
the signal more or less often. As long as nobody disposes the session while it builds, none of this
shows: exchange the routes of builds in a list of steps and change the two settings, and every reply
stays the same, with result, state and log (`replies_eq_of_exchange`). Where somebody does, the
routes can be told apart by their logs.

`tuned` changes the two settings of a session. It commutes with every step and so with every run.
-/

namespace StatementOutline

/-- The settings with awaited builds on a worker or not, and looks at the signal at other times. -/
def Settings.tuned (settings : Settings) (onWorker : Bool) (interval : Nat) : Settings :=
  { settings with parseOnWorker := onWorker, checkInterval := interval }

def Document.tuned (d : Document) (onWorker : Bool) (interval : Nat) : Document :=
  { d with settings := d.settings.tuned onWorker interval }

theorem Document.make_tuned (languageId text : String) (rows : List SyntaxRow) (range : Span)
    (settings : Settings) (onWorker : Bool) (interval : Nat) :
    make languageId text rows range (settings.tuned onWorker interval) =
      (make languageId text rows range settings).map (·.tuned onWorker interval) := by
  unfold make
  cases Language.ofId? languageId with
  | none => rfl
  | some language =>
    have hvalid :
        (Document.mk language text rows range (settings.tuned onWorker interval)).RangeValid ↔
          (Document.mk language text rows range settings).RangeValid := Iff.rfl
    by_cases h : (Document.mk language text rows range settings).RangeValid
    · simp only [hvalid, h, ↓reduceIte]
      rfl
    · simp only [hvalid, h, ↓reduceIte]
      rfl

/-- The steps agree, but builds may take different routes. No step is one that disposes the session
while it builds. -/
inductive Step.Exchange : Step → Step → Prop
  | build (route route' : BuildRoute) : Exchange (.build route) (.build route')
  | dispose : Exchange .dispose .dispose
  | disposeByHandle : Exchange .disposeByHandle .disposeByHandle
  | disposeByHandleCopy : Exchange .disposeByHandleCopy .disposeByHandleCopy
  | drop : Exchange .drop .drop
  | ask (q : Query) : Exchange (.ask q) (.ask q)

namespace Session

variable {s : Session} {a b : Step} (onWorker : Bool) (interval : Nat)

def tuned (s : Session) (onWorker : Bool) (interval : Nat) : Session :=
  { s with document := s.document.tuned onWorker interval }

/-- Undisturbed builds of a session and of the same with other settings end alike, each by a route
of its own: what an awaited build with a worker, one without, and a blocking build come to is one
and the same report (`build_eq`), and nothing of it depends on the two settings. -/
theorem build_tuned (s : Session) (route route' : BuildRoute) :
    (s.tuned onWorker interval).build route' =
      { s.build route with session := (s.build route).session.tuned onWorker interval } := by
  have hbuilt : (s.tuned onWorker interval).built = s.built := rfl
  have hdisposed : (s.tuned onWorker interval).disposed = s.disposed := rfl
  rw [build_eq, build_eq, hbuilt, hdisposed]
  split
  · rfl
  · split
    · rfl
    · rfl

/-- Questions have the same answers. Only one of them builds: a second session on the document. -/
theorem ask_tuned (s : Session) (q : Query) : (s.tuned onWorker interval).ask q = s.ask q := by
  cases q with
  | sameAsRebuilt offset =>
    have hrebuilt : (s.tuned onWorker interval).rebuilt =
        (s.rebuilt.1.tuned onWorker interval, s.rebuilt.2) := by
      have hbuild := build_tuned onWorker interval (startAmong s.flags s.document).1 .blocking
        .blocking
      simp only [rebuilt]
      rw [show (startAmong (s.tuned onWorker interval).flags
        (s.tuned onWorker interval).document).1 =
          (startAmong s.flags s.document).1.tuned onWorker interval from rfl, hbuild]
      rfl
    simp only [ask, compareRebuilt, hrebuilt]
    rfl
  | _ => rfl

/-- Exchanged steps answer alike, and lead to sessions that differ in these settings only. -/
theorem step_tuned (h : a.Exchange b) (s : Session) : (s.tuned onWorker interval).step b =
    ((s.step a).1.tuned onWorker interval, (s.step a).2) := by
  have hdropped : (s.tuned onWorker interval).dropped = s.dropped := rfl
  unfold step
  rw [hdropped]
  split
  · cases h <;> rfl
  · cases h with
    | build route route' =>
      simp only [liveStep, replyToBuild, build_tuned onWorker interval s route route']
      rfl
    | ask q =>
      simp only [liveStep, ask_tuned]
      rfl
    | _ => rfl

/-- So do exchanged runs, step by step. -/
theorem run_tuned {steps steps' : List Step} (h : List.Forall₂ Step.Exchange steps steps')
    (s : Session) : (s.tuned onWorker interval).run steps' =
      ((s.run steps).1.tuned onWorker interval, (s.run steps).2) := by
  induction h generalizing s with
  | nil => rfl
  | cons hab _ ih => simp only [run, step_tuned onWorker interval hab, ih]

/-- **The route of a build does not show.** With other settings for the worker and the interval, a
document is refused for the same reason or made as before. A session on it that takes the same
steps, its builds by any routes, logs the same at the start and gives the same replies, and ends as
the same session but for the two settings. -/
theorem replies_eq_of_exchange (onWorker : Bool) (interval : Nat) {steps steps' : List Step}
    (h : List.Forall₂ Step.Exchange steps steps') :
    (∀ languageId text rows range settings,
      Document.make languageId text rows range (settings.tuned onWorker interval) =
        (Document.make languageId text rows range settings).map (·.tuned onWorker interval)) ∧
    ∀ d : Document, (start (d.tuned onWorker interval)).2 = (start d).2 ∧
      ((start (d.tuned onWorker interval)).1.run steps').2 = ((start d).1.run steps).2 ∧
      ((start (d.tuned onWorker interval)).1.run steps').1 =
        ((start d).1.run steps).1.tuned onWorker interval := by
  refine ⟨fun _ _ _ _ _ => Document.make_tuned .., fun d => ?_⟩
  have hstart : (start (d.tuned onWorker interval)).1 = (start d).1.tuned onWorker interval := rfl
  rw [hstart, run_tuned onWorker interval h]
  exact ⟨rfl, rfl, rfl⟩

/-- Disposed when its outline is finished, a build fails by every route, but only one that waits for
a worker says that it was disposed on the way; the others have an outline to discard. -/
example : ((start oneLiners).1.buildUnder .atEnd .awaited).events.getLast? =
      some (.disposedDuringBuild .python) ∧
    ((start (oneLiners.tuned false 0)).1.buildUnder .atEnd .awaited).events.getLast? =
      some (.discarded .python) ∧
    ((start oneLiners).1.buildUnder .atEnd .blocking).events.getLast? =
      some (.discarded .python) := by
  decide +kernel

/-- Built on a worker and asked, disposed through a handle, built again, dropped: the same without a
worker, with the routes exchanged and a look at every visit. -/
theorem replies_eq_oneLiners :
    ((start (oneLiners.tuned false 0)).1.run
      [.build .blocking, .ask .dump, .disposeByHandle, .build .awaited, .drop,
        .build .blocking]).2 =
    ((start oneLiners).1.run
      [.build .awaited, .ask .dump, .disposeByHandle, .build .blocking, .drop, .build .awaited]).2 ∧
    ((start oneLiners).1.run [.build .awaited]).2.map (·.events) =
      [[.collapsed ⟨"if_statement", ⟨0, 7⟩⟩, .collapsed ⟨"if_statement", ⟨8, 15⟩⟩,
        .built .python ⟨0, 15⟩ 2 2]] := by
  have hsteps : List.Forall₂ Step.Exchange
      [.build .awaited, .ask .dump, .disposeByHandle, .build .blocking, .drop, .build .awaited]
      [.build .blocking, .ask .dump, .disposeByHandle, .build .awaited, .drop,
        .build .blocking] :=
    .cons (.build ..) (.cons (.ask _) (.cons .disposeByHandle (.cons (.build ..) (.cons .drop
      (.cons (.build ..) .nil)))))
  exact ⟨((replies_eq_of_exchange false 0 hsteps).2 oneLiners).2.1, by decide +kernel⟩

end Session

end StatementOutline
