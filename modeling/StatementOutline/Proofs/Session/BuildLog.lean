import StatementOutline.Proofs.Outline.Collapse
import StatementOutline.Proofs.Outline.RangeIndependence
import StatementOutline.Proofs.Session.Interruption
import StatementOutline.Proofs.Session.UnitIndependence

/-!
# The log of a build

A build that puts an outline in place logs the statements that collapsed, each once and in the order
of their ids, and then the size of the outline (`log_of_build`). A note is made on the way to a
verdict, and only the walk asks for verdicts, at the nodes in scope that it enters; the search for
blocks and the checks of shapes, which also go through nodes that the walk never comes to, ask for
rules and kinds. A node of which a note is made is a statement (`classify_of_isCollapsed`), so the
notes of a full walk are those of the selected nodes (`notes_walk_never`).
-/

namespace StatementOutline

namespace RuleTable

variable {table : RuleTable} {t : SyntaxTree} {i : Nat}

/-- The rule of node `i` is one that descends. -/
def Descends (table : RuleTable) (t : SyntaxTree) (i : Nat) : Prop :=
  table.ruleFor t i = .compound ∨ table.ruleFor t i = .wrapper ∨
    ∃ shape, table.ruleFor t i = .compoundIf shape ∧ shape.holds t i = true

/-- Node `i` is of a kind that collapses, stands on one line, and has no block. -/
def Collapses (table : RuleTable) (t : SyntaxTree) (i : Nat) : Prop :=
  ∃ c ∈ table.collapse, (t.node i).kind ∈ c.kinds ∧ (t.node i).lines.isSingleLine = true ∧
    ¬ ∃ d, table.IsBlockOf t c.blocks i d

theorem isSome_collapse?_iff : (table.collapse? t i).isSome = true ↔ table.Collapses t i := by
  unfold collapse? Collapses
  cases table.collapse with
  | none => simp
  | some c =>
    simp only [Option.filter_some, Option.mem_some_iff, exists_eq_left', ← hasBlock_iff,
      Bool.not_eq_true]
    split
    · next h => simpa [and_assoc] using h
    · next h => simpa [and_assoc] using h

/-- A note is made of node `i` on the way to its verdict. -/
def isCollapsed (table : RuleTable) (t : SyntaxTree) (i : Nat) : Bool :=
  (table.classify t i).note.isSome

theorem openRuling_of_none (h : table.collapse? t i = none) (compound : Bool) :
    table.openRuling t i compound = ⟨.statement compound true, none⟩ := by
  rw [openRuling, h]

theorem openRuling_of_some {c : Collapse} (h : table.collapse? t i = some c) (compound : Bool) :
    table.openRuling t i compound =
      ⟨.statement c.keepCompound false, some ⟨(t.node i).kind, (t.node i).span⟩⟩ := by
  rw [openRuling, h]

/-- A node to descend into gets the ruling that may collapse it. -/
theorem classify_of_descends (h : table.Descends t i) :
    ∃ compound, table.classify t i = table.openRuling t i compound := by
  rcases h with hrule | hrule | ⟨shape, hrule, hholds⟩
  · exact ⟨true, by simp [classify, hrule]⟩
  · exact ⟨false, by simp [classify, hrule]⟩
  · exact ⟨true, by simp [classify, hrule, hholds]⟩

theorem note_of_not_descends (h : ¬ table.Descends t i) : (table.classify t i).note = none := by
  unfold classify
  split
  · rfl
  · rfl
  · rfl
  · rfl
  · next hrule => exact absurd (.inr (.inl hrule)) h
  · next hrule => exact absurd (.inl hrule) h
  · next shape hrule =>
    split
    · next hholds => exact absurd (.inr (.inr ⟨shape, hrule, hholds⟩)) h
    · rfl

/-- A note is made of a node exactly if its rule descends and the node collapses. It names the node,
and the node is then a statement without nested ones. -/
theorem classify_of_isCollapsed (h : table.isCollapsed t i = true) :
    (table.Descends t i ∧ table.Collapses t i) ∧
      ∃ compound, table.classify t i =
        ⟨.statement compound false, some ⟨(t.node i).kind, (t.node i).span⟩⟩ := by
  by_cases hdescends : table.Descends t i
  · obtain ⟨compound, hclassify⟩ := classify_of_descends hdescends
    cases hc : table.collapse? t i with
    | none => simp [isCollapsed, hclassify, openRuling_of_none hc] at h
    | some c =>
      have hcollapses : table.Collapses t i := isSome_collapse?_iff.1 (by simp [hc])
      exact ⟨⟨hdescends, hcollapses⟩, c.keepCompound, hclassify.trans (openRuling_of_some hc _)⟩
  · simp [isCollapsed, note_of_not_descends hdescends] at h

theorem isCollapsed_iff :
    table.isCollapsed t i = true ↔ table.Descends t i ∧ table.Collapses t i := by
  refine ⟨fun h => (classify_of_isCollapsed h).1, fun ⟨hdescends, hcollapses⟩ => ?_⟩
  obtain ⟨compound, hclassify⟩ := classify_of_descends hdescends
  obtain ⟨c, hc⟩ := Option.isSome_iff_exists.1 (isSome_collapse?_iff.2 hcollapses)
  simp [isCollapsed, hclassify, openRuling_of_some hc]

end RuleTable

/-! ## The notes of a full walk -/

namespace Reduction

variable {r : Reduction} {w : Walk} {o : Outline} {i k : Nat}

/-- The note of node `i`. -/
def noteOf (r : Reduction) (i : Nat) : CollapseNote :=
  ⟨(r.tree.node i).kind, (r.tree.node i).span⟩

/-- A walk that enters node `i` notes it. -/
def isNoted (r : Reduction) (i : Nat) : Bool :=
  r.inScope i && r.table.isCollapsed r.tree i

/-- What a walk notes at a node is what the ruling on the node says. -/
theorem toList_notes_note (r : Reduction) (w : Walk) (i : Nat) :
    (w.note (r.table.classify r.tree i).note).notes.toList =
      w.notes.toList ++ if r.table.isCollapsed r.tree i then [r.noteOf i] else [] := by
  cases h : r.table.isCollapsed r.tree i with
  | true =>
    obtain ⟨-, compound, hclassify⟩ := RuleTable.classify_of_isCollapsed h
    simp [hclassify, Walk.note, noteOf]
  | false =>
    have hnone : (r.table.classify r.tree i).note = none := by
      simpa [RuleTable.isCollapsed] using h
    simp [hnone, Walk.note]

/-- With no signal, entering a node notes it if it is in scope and collapses. -/
theorem notes_enter_never (hn : r.signal = .never) (hw : w.stopped = false) (i : Nat) :
    (r.enter w i).notes.toList = w.notes.toList ++ if r.isNoted i then [r.noteOf i] else [] := by
  have hnote := r.toList_notes_note w.count i
  unfold enter isNoted
  rw [if_neg (by simp [hw]), if_neg (by simp [seesSignal_never hn])]
  split
  · next hscope =>
    rw [Bool.not_eq_true'] at hscope
    simp [hscope, Walk.count]
  · next hscope =>
    rw [Bool.not_eq_true, Bool.not_eq_false'] at hscope
    rw [hscope, Bool.true_and]
    cases r.table.verdict r.tree i with
    | skip => exact hnote
    | sealed => exact hnote
    | statement compound descend => exact hnote

/-- With no signal, the notes are those of the collapsing nodes, in order. -/
theorem notes_foldl_enter_never (hn : r.signal = .never) (hw : w.stopped = false) (l : List Nat) :
    (l.foldl r.enter w).notes.toList = w.notes.toList ++ (l.filter r.isNoted).map r.noteOf := by
  induction l generalizing w with
  | nil => simp
  | cons i l ih =>
    rw [List.foldl_cons, ih (enter_never hn hw i).1, notes_enter_never hn hw, List.append_assoc]
    cases h : r.isNoted i with
    | true => rw [List.filter_cons_of_pos h]; rfl
    | false => rw [List.filter_cons_of_neg (by simp [h])]; rfl

/-- A full walk notes the selected nodes that collapse. -/
theorem notes_walk_never (hn : r.signal = .never) : r.walk.notes.toList =
    (r.selection.filter fun i => r.table.isCollapsed r.tree i).map r.noteOf := by
  rw [walk_eq_foldl_enter, notes_foldl_enter_never hn rfl, selection_eq_filter_trail,
    List.filter_filter]
  show (r.trail.filter r.isNoted).map r.noteOf = _
  congr 1
  apply List.filter_congr
  intro i _
  cases h : r.table.isCollapsed r.tree i with
  | false => simp [isNoted, h]
  | true =>
    obtain ⟨-, compound, hclassify⟩ := RuleTable.classify_of_isCollapsed h
    simp [isNoted, isKept, isStatement, RuleTable.verdict, h, hclassify]

/-- The ids of the statements that collapsed. -/
def collapsedIds (r : Reduction) : List Nat :=
  (List.range r.selection.length).filter fun k => r.selection[k]?.any (r.table.isCollapsed r.tree)

theorem mem_collapsedIds : k ∈ r.collapsedIds ↔ ∃ i, r.selection[k]? = some i ∧
    r.table.Descends r.tree i ∧ r.table.Collapses r.tree i := by
  simp only [collapsedIds, List.mem_filter, List.mem_range, Option.any_eq_true,
    ← RuleTable.isCollapsed_iff]
  constructor
  · exact And.right
  · rintro ⟨i, hi, h⟩
    exact ⟨(List.getElem?_eq_some_iff.1 hi).1, i, hi, h⟩

theorem pairwise_collapsedIds (r : Reduction) : r.collapsedIds.Pairwise (· < ·) :=
  List.pairwise_lt_range.filter _

/-- The notes of a full walk are the kinds and spans of the statements that collapsed, in the order
of ids. -/
theorem Shows.notes_eq (hs : r.Shows r.selection o) (hn : r.signal = .never) :
    r.walk.notes.toList = r.collapsedIds.map fun k => ⟨(o.node k).kind, (o.node k).span⟩ := by
  rw [notes_walk_never hn]
  refine (map_filter_range fun k i hi => ⟨?_, ?_⟩).symm
  · rw [hi, Option.any_some]
  · rw [hs.kind_eq hi, hs.span_eq hi]
    rfl

theorem Shows.children_of_collapsed (hs : r.Shows r.selection o) (hl : o.Linked)
    (hk : k ∈ r.collapsedIds) : (o.node k).children = #[] := by
  obtain ⟨i, hi, hdescends, hcollapses⟩ := mem_collapsedIds.1 hk
  obtain ⟨-, compound, hclassify⟩ :=
    RuleTable.classify_of_isCollapsed (RuleTable.isCollapsed_iff.2 ⟨hdescends, hcollapses⟩)
  by_cases hchildren : (o.node k).children = #[]
  · exact hchildren
  · obtain ⟨j, hj⟩ := Array.exists_mem_of_ne_empty _ hchildren
    obtain ⟨i', hi', hv'⟩ := hs.verdict_of_child hl hj
    obtain rfl : i = i' := Option.some.inj (hi.symm.trans hi')
    rw [RuleTable.verdict, hclassify] at hv'
    cases hv'

end Reduction

/-! ## Builds that succeed -/

/-- An event as a log shows it: the name of its level, its message and its fields. -/
def Event.written (e : Event) : String × String × List (String × FieldValue) :=
  (e.level.label, e.message, e.fields)

namespace Session

variable {s : Session} {disturbance : Disturbance} {route : BuildRoute}

/-- A first build that succeeds, whatever gets in its way, reports what one reports that nothing
disturbs. -/
theorem buildUnder_of_ok (hb : s.built = none)
    (hok : (s.buildUnder disturbance route).result = .ok ()) :
    s.disposed = false ∧ s.buildUnder disturbance route =
      ⟨{ s.withoutParser with built := some s.document.forest }, .ok (),
        s.document.buildEvents⟩ := by
  cases s.buildUnder_ends disturbance route with
  | already hsome => simp [hb] at hsome
  | refused _ _ hreport => simp [hreport] at hok
  | disposed _ _ _ _ hresult => simp [hresult] at hok
  | failed _ _ _ _ _ _ hresult => simp [hresult] at hok
  | finished _ hd _ hreport => exact ⟨hd, hreport⟩

/-- **The log of a build mirrors the outline.** In a session that holds no outline and is not
disposed a build succeeds. Every first build that does, by whatever route and whatever gets in its
way, writes one trace for each statement whose node is descended into by its rule and collapses, in
the order of the ids and with the kind and span of the statement, and for no other node. Then it
writes the number of statements and of roots, once. Statements that are traced have no children. -/
theorem log_of_build (s : Session) (disturbance : Disturbance) (route : BuildRoute)
    (hb : s.built = none) :
    (s.disposed = false → (s.build route).result = .ok ()) ∧
    ((s.buildUnder disturbance route).result = .ok () →
      let d := s.document
      let full := d.reduction .never
      let o := (s.buildUnder disturbance route).session.outline
      full.Shows full.selection o ∧ ∃ ids : List Nat, ids.Pairwise (· < ·) ∧
        (∀ k, k ∈ ids ↔ ∃ i, full.selection[k]? = some i ∧
          full.table.Descends full.tree i ∧ full.table.Collapses full.tree i) ∧
        (s.buildUnder disturbance route).events.map Event.written =
          ids.map (fun k => ("TRACE", "collapsed single-line statement",
            [("kind", .text (o.node k).kind), ("start", .number (o.node k).span.start),
              ("end", .number (o.node k).span.stop)])) ++
          [("DEBUG", "built statement tree",
            [("language", .text d.language.id), ("start", .number d.range.start),
              ("end", .number d.range.stop), ("statements", .number o.size),
              ("roots", .number o.roots.size)])] ∧
        ∀ k ∈ ids, (o.node k).children = #[]) := by
  refine ⟨fun hd => (build_of_live hd (fun o ho => by rw [hb] at ho; cases ho) route).1,
    fun hok => ?_⟩
  obtain ⟨hd, hreport⟩ := buildUnder_of_ok hb hok
  obtain ⟨hs, hl⟩ := s.document.exists_shows_forest
  intro d full o
  have ho : o = d.forest := by
    show (s.buildUnder disturbance route).session.outline = _
    rw [hreport]
    exact (outline_of_built (s := { s.withoutParser with built := some d.forest }) hd rfl).2
  rw [ho, hreport]
  refine ⟨hs, full.collapsedIds, full.pairwise_collapsedIds,
    fun k => Reduction.mem_collapsedIds, ?_, fun k hk => hs.children_of_collapsed hl hk⟩
  show d.buildEvents.map Event.written = _
  rw [Document.buildEvents, ← d.notes_reduction, hs.notes_eq rfl]
  simp only [List.map_append, List.map_map]
  rfl

/-- Three conditionals in JavaScript, each on one line. The second has a block, and the third is out
of scope. -/
def conditionals : Document where
  language := .javaScript
  text := "if (a) b; if (c) { d; } if (e) f;"
  rows := [⟨0, true, "program", none, ⟨0, 33⟩, ⟨0, 0⟩⟩,
    ⟨1, true, "if_statement", none, ⟨0, 9⟩, ⟨0, 0⟩⟩,
    ⟨2, true, "parenthesized_expression", some "condition", ⟨3, 6⟩, ⟨0, 0⟩⟩,
    ⟨2, true, "expression_statement", some "consequence", ⟨7, 9⟩, ⟨0, 0⟩⟩,
    ⟨1, true, "if_statement", none, ⟨10, 23⟩, ⟨0, 0⟩⟩,
    ⟨2, true, "parenthesized_expression", some "condition", ⟨13, 16⟩, ⟨0, 0⟩⟩,
    ⟨2, true, "statement_block", some "consequence", ⟨17, 23⟩, ⟨0, 0⟩⟩,
    ⟨3, true, "expression_statement", none, ⟨19, 21⟩, ⟨0, 0⟩⟩,
    ⟨1, true, "if_statement", none, ⟨24, 33⟩, ⟨0, 0⟩⟩,
    ⟨2, true, "parenthesized_expression", some "condition", ⟨27, 30⟩, ⟨0, 0⟩⟩,
    ⟨2, true, "expression_statement", some "consequence", ⟨31, 33⟩, ⟨0, 0⟩⟩]
  range := ⟨0, 20⟩
  settings := {}

theorem log_of_build_conditionals :
    (start conditionals).1.built = none ∧
    ((start conditionals).1.build .awaited).result = .ok () ∧
    ((start conditionals).1.build .awaited).events.map Event.written =
      [("TRACE", "collapsed single-line statement",
        [("kind", .text "if_statement"), ("start", .number 0), ("end", .number 9)]),
      ("DEBUG", "built statement tree",
        [("language", .text "javascript"), ("start", .number 0), ("end", .number 20),
          ("statements", .number 4), ("roots", .number 2)])] ∧
    (conditionals.reduction .never).collapsedIds = [0] ∧
    (((start conditionals).1.build .awaited).session.outline.node 0).children = #[] := by
  have hids : (conditionals.reduction .never).collapsedIds = [0] := by decide +kernel
  obtain ⟨hlive, hlog⟩ := log_of_build (start conditionals).1 .nothing .awaited rfl
  have hok := hlive rfl
  obtain ⟨-, ids, -, hmem, -, hleaf⟩ := hlog hok
  have hzero : 0 ∈ ids := by
    rw [hmem]
    exact Reduction.mem_collapsedIds.1 (hids ▸ List.mem_singleton_self 0)
  exact ⟨rfl, hok, by decide +kernel, hids, hleaf 0 hzero⟩

end Session

end StatementOutline
