import StatementOutline.Proofs.Outline.Halting
import StatementOutline.Proofs.Session.Run

/-!
# Disposal in the middle of a build

A handle can dispose a session while it builds, at the moment a collapse is noted. What then becomes
of the build can be told from the full walk, the one without a signal. If that walk notes fewer
collapses, the build goes as any other. Else it fails as disposed and puts no outline in place,
whether the walk sees the signal at a look or comes to its end; the log tells which of the two it
was (`buildUnder_atCollapse`).
-/

namespace StatementOutline.Session

variable {s : Session} {n : Nat}

/-- A blocking build that a handle may dispose at a collapse, told by its walk. -/
theorem buildUnder_blocking_eq (hb : s.built = none) (hd : s.disposed = false) (n : Nat) :
    s.buildUnder (.atCollapse n) .blocking =
      let r := s.document.reduction (.atCollapse n)
      s.withoutParser.conclude ⟨r.outline, r.walk.notes.toList.map .collapsed,
        s.flags.raiseIf s.token (StopSignal.isSet (.atCollapse n) r.walk.notes.size)⟩ := by
  have hrun := @Job.run_eq_walk s.withoutParser.job s.withoutParser.flags (.atCollapse n) hd
    (s.parser.getD ⟨s.document.language⟩) trivial
  simp only [buildUnder, buildBlocking, hb, takeParser_of_live hd]
  rw [hrun]
  simp only [reduceCtorEq, decide_false, Bool.or_false]
  rfl

/-- Once the signal is set the build fails; the outline of a walk that did not see it is
discarded. -/
theorem buildUnder_blocking_of_set (hb : s.built = none) (hd : s.disposed = false)
    (hset : StopSignal.isSet (.atCollapse n)
      (s.document.reduction (.atCollapse n)).walk.notes.size = true) :
    s.buildUnder (.atCollapse n) .blocking =
      ⟨s.withoutParser.disposeBy s.newHandle, .error .disposed,
        (s.document.reduction (.atCollapse n)).walk.notes.toList.map .collapsed ++
          if (s.document.reduction (.atCollapse n)).walk.stopped then []
          else [.discarded s.document.language]⟩ := by
  have hdisposed : (s.withoutParser.disposeBy s.newHandle).disposed = true := disposed_disposeBy rfl
  rw [buildUnder_blocking_eq hb hd]
  simp only [hset, Reduction.outline, Flags.raiseIf_true]
  split
  · rw [List.append_nil]
    exact conclude_of_error rfl
  · rw [conclude_of_ok rfl]
    exact congrArg (BuildReport.behind · _) (install_of_disposed hdisposed _)

/-- **Disposal in the middle of a build is all or nothing.** Let a handle dispose a session, neither
built nor disposed, at the `n`-th collapse of a blocking build. If the full walk notes fewer
collapses, the build is an ordinary one. Else, with the `n`-th noted at visit `v`, it fails, leaves
the session disposed and empty, and logs the first of the collapses, at least `n`. Either no look
falls behind `v` and up to the last visit: then all are logged and a finished outline is discarded.
Or the walk halts at the first such look, and nothing more is logged. -/
theorem buildUnder_atCollapse (hb : s.built = none) (hd : s.disposed = false) (hn : 0 < n) :
    let full := s.document.reduction .never
    let cut := s.document.reduction (.atCollapse n)
    let interval := max s.document.settings.checkInterval 1
    let report := s.buildUnder (.atCollapse n) .blocking
    (full.walk.notes.size < n → report = s.build .blocking) ∧
    (n ≤ full.walk.notes.size → ∃ v, full.NotesAt n v ∧
      report.result = .error .disposed ∧
      report.session = s.withoutParser.disposeBy s.newHandle ∧
      (report.session.built = none ∧ report.session.disposed = true ∧
        report.session.isBuilt = false ∧ report.session.outline = .empty) ∧
      ∃ emitted warning, report.events = emitted.map .collapsed ++ warning ∧
        emitted <+: full.walk.notes.toList ∧ n ≤ emitted.length ∧
        (warning = [.discarded s.document.language] ∧
            (∀ m, v < m → m ≤ full.walk.visited → ¬ interval ∣ m) ∧
            cut.walk.stopped = false ∧ emitted = full.walk.notes.toList ∨
          warning = [] ∧ ∃ m, v < m ∧ m ≤ full.walk.visited ∧ interval ∣ m ∧
            (∀ j, v < j → j < m → ¬ interval ∣ j) ∧
            cut.walk.stopped = true ∧ cut.walk.visited = m ∧
            emitted = (full.after (m - 1)).notes.toList)) := by
  intro full cut interval report
  constructor
  · intro hfew
    have hundisturbed : ¬ (Disturbance.atCollapse n).Disposes s.document := by
      rintro ⟨-, hle⟩
      rw [← Document.notes_reduction, Array.length_toList] at hle
      exact Nat.not_lt.2 hle hfew
    exact buildUnder_eq_build hb hundisturbed id .blocking
  · intro hmany
    obtain ⟨v, hv⟩ := Reduction.exists_notesAt hn hmany
    have hup : (s.withoutParser.disposeBy s.newHandle).disposed = true := disposed_disposeBy rfl
    have hempty : (s.withoutParser.disposeBy s.newHandle).built = none ∧
        (s.withoutParser.disposeBy s.newHandle).disposed = true ∧
        (s.withoutParser.disposeBy s.newHandle).isBuilt = false ∧
        (s.withoutParser.disposeBy s.newHandle).outline = .empty :=
      ⟨hb, hup, outline_of_disposed hup⟩
    have hreport : n ≤ cut.walk.notes.size → report =
      ⟨s.withoutParser.disposeBy s.newHandle, .error .disposed,
        cut.walk.notes.toList.map .collapsed ++
          if cut.walk.stopped then [] else [.discarded s.document.language]⟩ := fun hle =>
      buildUnder_blocking_of_set hb hd ((Reduction.isSet_atCollapse hn).2 hle)
    refine ⟨v, hv, ?_⟩
    rcases Reduction.walk_atCollapse (r := cut) rfl hn hv with
      ⟨hnone, hwalk⟩ | ⟨m, hlt, hle, hdvd, hfirst, hstopped, hvisited, hnotes⟩
    · have hwalk : cut.walk = full.walk := hwalk
      have hstopped : full.walk.stopped = false := Reduction.stopped_walk_never rfl
      rw [hwalk, hstopped] at hreport
      rw [hreport hmany, hwalk]
      exact ⟨rfl, rfl, hempty, full.walk.notes.toList, _, rfl, List.prefix_rfl, hmany,
        .inl ⟨rfl, hnone, hstopped, rfl⟩⟩
    · have hnotes : cut.walk.notes = (full.after (m - 1)).notes := hnotes
      have hemitted : n ≤ (full.after (m - 1)).notes.size := (hv.le_iff _).2 (by omega)
      rw [hnotes, hstopped] at hreport
      rw [hreport hemitted]
      exact ⟨rfl, rfl, hempty, (full.after (m - 1)).notes.toList, [], rfl,
        full.notes_after_walk _, hemitted,
        .inr ⟨rfl, m, hlt, hle, hdvd, hfirst, hstopped, hvisited, rfl⟩⟩

/-- The first of two collapses is noted at the second of three visits. A walk that looks at every
visit halts at the third; one that looks at every 256th discards its outline. -/
theorem buildUnder_atCollapse_oneLiners :
    (oneLiners.reduction .never).walk.visited = 3 ∧
    (oneLiners.reduction .never).NotesAt 1 2 ∧
    ((start oneLiners).1.buildUnder (.atCollapse 1) .blocking).events =
      [.collapsed ⟨"if_statement", ⟨0, 7⟩⟩, .collapsed ⟨"if_statement", ⟨8, 15⟩⟩,
        .discarded .python] ∧
    ((start { oneLiners with settings := { checkInterval := 0 } }).1.buildUnder
      (.atCollapse 1) .blocking).events = [.collapsed ⟨"if_statement", ⟨0, 7⟩⟩] ∧
    ((start oneLiners).1.buildUnder (.atCollapse 1) .blocking).result = .error .disposed ∧
    (start oneLiners).1.buildUnder (.atCollapse 3) .blocking =
      (start oneLiners).1.build .blocking := by
  have hcount : (oneLiners.reduction .never).walk.notes.size = 2 := by decide +kernel
  obtain ⟨-, hcut⟩ := buildUnder_atCollapse (s := (start oneLiners).1) (n := 1) rfl rfl (by decide)
  obtain ⟨hfew, -⟩ := buildUnder_atCollapse (s := (start oneLiners).1) (n := 3) rfl rfl (by decide)
  obtain ⟨v, -, hresult, -⟩ := hcut ((by decide : 1 ≤ 2).trans_eq hcount.symm)
  exact ⟨by decide +kernel, by decide +kernel, by decide +kernel, by decide +kernel, hresult,
    hfew (hcount.trans_lt (by decide))⟩

end StatementOutline.Session
