import StatementOutline.Proofs.Session.Run

/-!
# Builds of a disposed session

A build looks first whether there is an outline, and only then whether the session is disposed; and
a handle marks a session but leaves its outline where it is. So a build of a disposed session fails,
unless the session was built before and was disposed through handles only: then the build reports
success, although the session shows nothing (`build_of_disposed`).

Which of the two it is can be read off the history (`Sound.built_run`): an outline is in place if
some step reported a build and none disposed the session from inside.
-/

namespace StatementOutline.Session

variable {s u : Session} {d : Document} {action : Step} {result : StepResult}

/-! ## When an outline is in place -/

theorem Holding.isSome_built {built : Option Outline} (h : s.Holding built) :
    built.isSome = true := by
  rcases h with ⟨hb, rfl⟩ | ⟨-, -, rfl⟩
  · exact hb
  · rfl

/-- A step leaves an outline in place if there was one or it reports a build, and it does not
dispose the session from inside. -/
theorem Outcome.isSome_built (h : s.Outcome u action result) :
    u.built.isSome = true ↔
      action ≠ .dispose ∧ (s.built.isSome = true ∨ result = .built) := by
  cases h with
  | holds ha hb hdropped => simp [ha, hb.isSome_built]
  | keeps ha hr hb hdropped => simp [ha, hr, hb]
  | cleared hb hdropped => simp [hb]
  | left hb hd => simp [hb]

theorem Outcome.dropped_eq (h : s.Outcome u action result) (ha : action ≠ .drop) :
    u.dropped = s.dropped := by
  cases h with
  | holds _ _ hdropped => exact hdropped
  | keeps _ _ _ hdropped => exact hdropped
  | cleared _ hdropped => exact hdropped
  | left => exact absurd rfl ha

/-- The session is disposed and has let go of its outline. -/
def Cleared (s : Session) : Prop :=
  s.disposed = true ∧ s.built = none

/-- Nothing brings an outline back. -/
theorem Cleared.outcome (h : s.Cleared) (hk : s.Kept u) (hu : s.Outcome u action result) :
    u.Cleared := by
  obtain ⟨hd, hb⟩ := h
  refine ⟨hk.disposed_mono hd, ?_⟩
  cases hu with
  | holds _ hholding =>
    rcases hholding with ⟨hsome, -⟩ | ⟨-, hlive, -⟩
    · simp [hb] at hsome
    · simp [hd] at hlive
  | keeps _ _ hbuilt => exact hbuilt.trans hb
  | cleared hbuilt => exact hbuilt
  | left hbuilt => exact hbuilt.trans hb

/-- At the end of a run, an outline is in place if one was there or some step reported a build, and
none of the steps disposed the session from inside. -/
theorem Sound.built_run (hs : Sound d s) (hdropped : s.dropped = false) {steps : List Step}
    (hdrop : .drop ∉ steps) :
    (s.run steps).1.built.isSome = true ↔ .dispose ∉ steps ∧
      (s.built.isSome = true ∨ ∃ reply ∈ (s.run steps).2, reply.result = .built) := by
  induction steps generalizing s with
  | nil => simp [Session.run]
  | cons action rest ih =>
    obtain ⟨hfirst, hrest⟩ : action ≠ .drop ∧ .drop ∉ rest := by
      simpa [eq_comm] using hdrop
    obtain ⟨-, houtcome⟩ := liveStep_spec hs.handle_shares action
    rw [← step_of_not_dropped hdropped] at houtcome
    by_cases hdispose : action = .dispose
    -- Disposed from inside, the session stays without an outline to the end.
    · subst hdispose
      have hcleared : (s.step .dispose).1.Cleared := by
        rw [step_of_not_dropped hdropped]
        exact ⟨s.flags.isUp_raise s.token, rfl⟩
      have hlast := (hs.step .dispose).run_invariant hcleared Cleared.outcome rest
      simp [Session.run, hlast.2]
    · have hnext := ih (hs.step action) ((houtcome.dropped_eq hfirst).trans hdropped) hrest
      rw [houtcome.isSome_built] at hnext
      have hmem : .dispose ∉ action :: rest ↔ .dispose ∉ rest := by
        simp [Ne.symm hdispose]
      rw [hmem]
      simpa [Session.run, hdispose, or_assoc] using hnext

/-! ## What a build of a disposed session reports -/

/-- A build of a disposed session changes nothing, and succeeds if there is an outline under the
flag. -/
theorem build_eq_of_disposed (hd : s.disposed = true) (route : BuildRoute) :
    (s.build route).session = s ∧
      (s.build route).result = if s.built.isSome then .ok () else .error .disposed := by
  rw [build_eq, hd]
  cases s.built with
  | none => exact ⟨rfl, rfl⟩
  | some o => exact ⟨rfl, rfl⟩

/-- **Builds of a disposed session.** After any steps that leave the session there, but disposed, a
build succeeds if one of the steps reported a build and none disposed the session from inside, so
that it was disposed through handles only; else the build fails as disposed. Either way it changes
nothing, and the session is not built and shows no statements. -/
theorem build_of_disposed (d : Document) {steps : List Step} {s : Session} {replies : List Reply}
    (hdrop : .drop ∉ steps) (hrun : (start d).1.run steps = (s, replies))
    (hdisposed : s.disposed = true) (route : BuildRoute) :
    ((s.build route).result = .ok () ↔
      .dispose ∉ steps ∧ ∃ reply ∈ replies, reply.result = .built) ∧
    ((s.build route).result = .error .disposed ↔
      .dispose ∈ steps ∨ ∀ reply ∈ replies, reply.result ≠ .built) ∧
    (s.build route).session = s ∧ s.isBuilt = false ∧ s.outline = .empty := by
  have hbuilt : s.built.isSome = true ↔
      .dispose ∉ steps ∧ ∃ reply ∈ replies, reply.result = .built := by
    have h := (sound_start d).built_run rfl hdrop
    rw [hrun] at h
    simpa [start, startAmong] using h
  obtain ⟨hsession, hresult⟩ := build_eq_of_disposed hdisposed route
  refine ⟨?_, ?_, hsession, outline_of_disposed hdisposed⟩
  · rw [← hbuilt, hresult]
    simp [Option.isSome_iff_ne_none]
  · have hnot : (.dispose ∈ steps ∨ ∀ reply ∈ replies, reply.result ≠ .built) ↔
        ¬ s.built.isSome = true := by
      rw [hbuilt]
      simp [or_iff_not_imp_left]
    rw [hnot, hresult]
    simp

/-- A session on `y = 1`, built and then disposed through a handle. -/
theorem build_of_disposed_assignment :
    ((start assignmentDocument).1.run [.build .blocking, .disposeByHandle]).1.disposed = true ∧
    ∀ route, (((start assignmentDocument).1.run
      [.build .blocking, .disposeByHandle]).1.build route).result = .ok () := by
  have hdisposed : ((start assignmentDocument).1.run
      [.build .blocking, .disposeByHandle]).1.disposed = true := by decide +kernel
  refine ⟨hdisposed, fun route => ?_⟩
  refine (build_of_disposed assignmentDocument (by decide) rfl hdisposed route).1.2 ?_
  exact ⟨by decide, by decide +kernel⟩

/-- A disposed session reports a build and shows nothing of it. -/
theorem replies_after_disposal_by_handle :
    ((start assignmentDocument).1.run
      [.build .blocking, .disposeByHandle, .build .blocking]).2.map
        (fun reply => (reply.result, reply.state)) =
      [(.built, some ⟨true, false, 1⟩), (.nothing, some ⟨false, true, 0⟩),
        (.built, some ⟨false, true, 0⟩)] := by
  decide +kernel

end StatementOutline.Session
