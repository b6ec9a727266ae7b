import StatementOutline.Proofs.Outline.Print
import StatementOutline.Proofs.Session.Run
import StatementOutline.Proofs.Session.UnitIndependence

/-!
# What a session prints

A session that is built shows the forest of its document, whose links agree and whose ids follow
document order, so that its listing and its paths can be read off the ids (`listing_of_run`). For a
path this says more where the syntax tree is nested: the lines of the path that is printed for an
offset are the statements that own it.
-/

namespace StatementOutline

theorem Document.contiguous_forest (d : Document) : d.forest.Contiguous := by
  obtain ⟨hshows, hlinked⟩ := d.exists_shows_forest
  exact hshows.contiguous hlinked

theorem Document.nested_forest {d : Document} (h : d.tree.Nested) : d.forest.Nested := by
  obtain ⟨hshows, hlinked⟩ := d.exists_shows_forest
  exact hshows.nested hlinked h

/-- The owners of an offset are the statements on the way down to the one that the lookup finds. -/
theorem Outline.owns_iff_chainAt {o : Outline} {offset a k : Nat} (hl : o.Linked) (hn : o.Nested)
    (hk : o.locate offset = some k) :
    o.Owns offset a ↔ ∃ depth ≤ (o.ancestors k).length, a = o.chainAt k depth := by
  rw [owns_iff_of_locate hl.linksAgree hn hk, ← mem_chain]
  constructor
  · intro ha
    obtain ⟨depth, hdepth⟩ := List.mem_iff_getElem?.1 ha
    have hlt := (List.getElem?_eq_some_iff.1 hdepth).1
    rw [length_chain] at hlt
    have hle : depth ≤ (o.ancestors k).length := Nat.le_of_lt_succ hlt
    rw [getElem?_chain hle] at hdepth
    exact ⟨depth, hle, (Option.some.inj hdepth).symm⟩
  · rintro ⟨depth, hle, rfl⟩
    exact List.mem_of_getElem? (getElem?_chain hle)

namespace Session

theorem Sound.outline_of_isBuilt {s : Session} {d : Document} (h : Sound d s)
    (hb : s.isBuilt = true) : s.outline = d.forest := by
  cases hd : s.disposed with
  | true =>
    rw [(outline_of_disposed hd).1] at hb
    cases hb
  | false =>
    rcases h.outline_of_live hd with ⟨hnot, -⟩ | ⟨-, hforest⟩
    · rw [hnot] at hb
      cases hb
    · exact hforest

/-- **Listings and paths show every statement in its place.** Whenever a session is built, its
listing is made of one line for each statement in the order of the ids: the number of the statement
among the roots, if it is one, then two blanks for each ancestor, then its description. The path to
a statement starts with the outermost around it and has one more line for each depth down to its
own, with the statement of that depth among itself and its ancestors. Where the syntax tree is
nested, the path printed for an offset shows exactly the statements that own the offset. -/
theorem listing_of_run (d : Document) (steps : List Step) {s : Session}
    (hs : s = ((start d).1.run steps).1) (hb : s.isBuilt = true) :
    let o := s.outline
    let depth := fun k => (o.ancestors k).length
    s.ask .dump = (.listing (String.join ((List.range o.size).map fun k =>
      o.mark k ++ indent (depth k) ++ (o.node k).describe ++ "\n")), []) ∧
    (∀ i k : Nat, o.roots[i]? = some k → o.mark k = "[" ++ toString i ++ "] ") ∧
    (∀ k, k ∉ o.roots → o.mark k = "") ∧
    (∀ k < o.size,
      (∀ n ≤ depth k, ∀ a, a = o.chainAt k n ↔ (a = k ∨ a ∈ o.ancestors k) ∧ depth a = n) ∧
      o.chainAt k (depth k) = k ∧
      ∀ lead pad, o.dumpPath k lead pad = lead ++ (o.node (o.chainAt k 0)).describe ++
        String.join ((List.range' 1 (depth k)).map fun n =>
          "\n" ++ pad ++ indent n ++ (o.node (o.chainAt k n)).describe)) ∧
    (d.tree.Nested → ∀ offset k, o.locate offset = some k →
      (∀ lead pad, s.ask (.pathAt offset lead pad) = (.path? (some (o.dumpPath k lead pad)), [])) ∧
      ∀ a, o.Owns offset a ↔ ∃ n ≤ depth k, a = o.chainAt k n) := by
  have hsound : Sound d s := hs ▸ (sound_start d).run steps
  have houtline := hsound.outline_of_isBuilt hb
  have hlinked := d.exists_shows_forest.2
  intro o depth
  have ho : o = d.forest := houtline
  have hl : o.Linked := ho ▸ hlinked
  refine ⟨?_, fun i k => Outline.mark_of_getElem? hl, fun k => Outline.mark_of_not_mem,
    fun k _ => ⟨fun n hn a => Outline.eq_chainAt_iff hl hn, o.chainAt_self k, o.dumpPath_eq k⟩, ?_⟩
  · show (Answer.listing o.dump, _) = _
    rw [Outline.dump_eq hl (ho ▸ d.contiguous_forest)]
    rfl
  · intro hnested offset k hk
    refine ⟨fun lead pad => ?_, fun a => ?_⟩
    · show (Answer.path? ((o.locate offset).map _), _) = _
      rw [hk]
      rfl
    · exact Outline.owns_iff_chainAt hl (ho ▸ Document.nested_forest hnested) hk

/-- The tree of `é; {{ b; }}`. -/
def blocksTree : Siblings :=
  .cons ⟨0, true, "program", none, ⟨0, 12⟩, ⟨0, 0⟩⟩
    (.cons ⟨0, true, "expression_statement", none, ⟨0, 3⟩, ⟨0, 0⟩⟩ .nil
      (.cons ⟨0, true, "statement_block", none, ⟨4, 12⟩, ⟨0, 0⟩⟩
        (.cons ⟨0, true, "statement_block", none, ⟨5, 11⟩, ⟨0, 0⟩⟩
          (.cons ⟨0, true, "expression_statement", none, ⟨7, 9⟩, ⟨0, 0⟩⟩ .nil .nil) .nil)
        .nil))
    .nil

/-- A name before a block in a block, in JavaScript. -/
def blocks : Document :=
  ⟨.javaScript, "é; {{ b; }}", blocksTree.rows 0, ⟨0, 11⟩, {}⟩

/-- The session on it after one build. -/
def blocksSession : Session :=
  ((start blocks).1.run [.build .blocking]).1

theorem listing_of_run_blocks :
    blocks.tree.Nested ∧ blocksSession.isBuilt = true ∧
    blocksSession.ask .dump =
      (.listing ("[0] expression_statement [0, 2) atomic\n" ++
        "[1] statement_block [3, 11) compound\n" ++
        "  statement_block [4, 10) compound\n" ++
        "    expression_statement [6, 8) atomic\n"), []) ∧
    blocksSession.ask (.pathAt 9 "> " "| ") =
      (.path? (some ("> statement_block [3, 11) compound\n" ++
        "|   statement_block [4, 10) compound")), []) ∧
    ∀ a, blocksSession.outline.Owns 9 a ↔ a = 1 ∨ a = 2 := by
  have hplaced : blocksTree.Placed "é; {{ b; }}" ⟨0, "é; {{ b; }}".utf8ByteSize⟩ := by decide
  have hnested : blocks.tree.Nested := SyntaxTree.ofRows_nested .char hplaced
  have hbuilt : blocksSession.isBuilt = true := by decide +kernel
  have hlocate : blocksSession.outline.locate 9 = some 2 := by decide +kernel
  have hdepth : (blocksSession.outline.ancestors 2).length = 1 := by decide +kernel
  have houter : blocksSession.outline.chainAt 2 0 = 1 := by decide +kernel
  have hself : blocksSession.outline.chainAt 2 1 = 2 := by decide +kernel
  obtain ⟨-, -, -, hpaths, hlocated⟩ :=
    listing_of_run (s := blocksSession) blocks [.build .blocking] rfl hbuilt
  obtain ⟨hpath, howns⟩ := hlocated hnested 9 2 hlocate
  refine ⟨hnested, hbuilt, by decide +kernel, ?_, fun a => ?_⟩
  · rw [hpath, (hpaths 2 (by decide +kernel)).2.2]
    decide +kernel
  · rw [howns]
    constructor
    · rintro ⟨n, hn, rfl⟩
      have hle : n ≤ 1 := Nat.le_trans hn (Nat.le_of_eq hdepth)
      rcases Nat.le_one_iff_eq_zero_or_eq_one.1 hle with rfl | rfl
      · exact .inl houter
      · exact .inr hself
    · rintro (rfl | rfl)
      · exact ⟨0, Nat.zero_le _, houter.symm⟩
      · exact ⟨1, Nat.le_of_eq hdepth.symm, hself.symm⟩

end Session

end StatementOutline
