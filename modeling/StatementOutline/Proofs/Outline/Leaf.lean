import StatementOutline.Proofs.Outline.Halting
import StatementOutline.Proofs.Outline.Order
import StatementOutline.Proofs.Rule
import StatementOutline.Rule.Builtin

/-!
# Statements without nested ones

A statement has children only if the verdict on its node asks to descend (`Shows.verdict_of_child`).
Whether it is compound and whether to descend go together for every rule but one: a wrapper is
descended into and not compound. So only wrappers can be statements that are not compound and still
have children (`wrapper_of_child`). Of the tables here only those for C and C++ list a wrapper, the
label.
-/

namespace StatementOutline

/-- Only wrappers are descended into without being compound. -/
theorem RuleTable.ruleFor_of_verdict {table : RuleTable} {t : SyntaxTree} {i : Nat}
    (h : table.verdict t i = .statement false true) : table.ruleFor t i = .wrapper := by
  have hopen : (table.openRuling t i true).verdict ≠ .statement false true := by
    unfold openRuling
    split <;> simp
  unfold verdict classify at h
  split at h
  · cases h
  · cases h
  · cases h
  · cases h
  · assumption
  · exact absurd h hopen
  · split at h
    · exact absurd h hopen
    · cases h

/-- The tables for C and C++ list one wrapper, and no other table lists any. -/
theorem Language.wrapper_entries (language : Language) :
    (∀ entry ∈ language.rules.kinds, entry.2 = .wrapper →
      (language = .c ∨ language = .cpp) ∧ entry.1 = "labeled_statement") ∧
    ∀ entry ∈ language.rules.fields, entry.rule ≠ .wrapper := by
  cases language <;> decide

/-- The only wrappers of the built-in languages are labels in C and C++. -/
theorem Language.label_of_wrapper {language : Language} {t : SyntaxTree} {i : Nat}
    (h : language.rules.ruleFor t i = .wrapper) :
    (language = .c ∨ language = .cpp) ∧ (t.node i).kind = "labeled_statement" := by
  obtain ⟨hkinds, hfields⟩ := language.wrapper_entries
  unfold RuleTable.ruleFor at h
  refine RuleTable.resolve_of_entries (P := fun rule => rule = .wrapper →
    (language = .c ∨ language = .cpp) ∧ (t.node i).kind = "labeled_statement") ?_ ?_ ?_ ?_ _ _ h
  · intro entry hentry hkind hwrapper
    rw [← hkind]
    exact hkinds entry hentry hwrapper
  · exact nofun
  · intro entry hentry hwrapper
    exact absurd hwrapper (hfields entry hentry)
  · exact nofun

namespace Reduction

variable {r : Reduction} {o : Outline} {j k : Nat}

/-- The walk descended into a statement that has children. -/
theorem Shows.verdict_of_child (hs : r.Shows r.selection o) (hl : o.Linked)
    (hj : j ∈ (o.node k).children) :
    ∃ i, r.selection[k]? = some i ∧
      r.table.verdict r.tree i = .statement (o.node k).compound true := by
  obtain ⟨hlt, hparent⟩ := hl.mem_children.1 hj
  obtain ⟨y, hy, hreached, -⟩ := hs.exists_node hlt
  have hk : k < o.size := Nat.lt_trans (hl.parent_lt hparent) hlt
  obtain ⟨x, hx, -⟩ := hs.exists_node hk
  have hholder : r.holder? y = some x := by
    rw [hs.holder?_eq hy, hparent, Option.bind_some, hx]
  have hopen := (hreached.2 x (List.mem_of_find?_eq_some hholder)).2
  obtain ⟨descend, hverdict⟩ := hs.verdict hx
  simp only [isOpen, hverdict] at hopen
  exact ⟨x, hx, hopen ▸ hverdict⟩

/-- A statement with children that is not compound comes from a wrapper. -/
theorem wrapper_of_child (hs : r.Shows r.selection o) (hl : o.Linked)
    (hcompound : (o.node k).compound = false) (hchildren : (o.node k).children ≠ #[]) :
    ∃ i, r.selection[k]? = some i ∧ r.table.ruleFor r.tree i = .wrapper := by
  obtain ⟨j, hj⟩ := Array.exists_mem_of_ne_empty _ hchildren
  obtain ⟨i, hi, hverdict⟩ := hs.verdict_of_child hl hj
  rw [hcompound] at hverdict
  exact ⟨i, hi, RuleTable.ruleFor_of_verdict hverdict⟩

/-- **Statements that are not compound are leaves**, unless their nodes are wrappers. With the table
of a language they are leaves, but for labels in C and C++. This holds of every outline a walk comes
to, and one that nothing stops comes to one. -/
theorem leaf_of_not_compound (r : Reduction) :
    (r.signal = .never → ∃ o, r.outline = .ok o) ∧
    ∀ o, r.outline = .ok o → r.Shows r.selection o ∧
      (∀ k < o.size, (o.node k).compound = false → (o.node k).children ≠ #[] →
        ∃ i, r.selection[k]? = some i ∧ r.table.ruleFor r.tree i = .wrapper) ∧
      ∀ language : Language, r.table = language.rules → ∀ k < o.size,
        (o.node k).compound = false → (o.node k).children = #[] ∨
          (language = .c ∨ language = .cpp) ∧ (o.node k).kind = "labeled_statement" := by
  refine ⟨fun hn => (exists_outline hn).imp fun _ h => h.1, fun o ho => ?_⟩
  obtain ⟨hs, hl⟩ := shows_of_outline ho
  refine ⟨hs, fun k _ => wrapper_of_child hs hl, fun language htable k _ hcompound => ?_⟩
  by_cases hchildren : (o.node k).children = #[]
  · exact .inl hchildren
  · obtain ⟨i, hi, hrule⟩ := wrapper_of_child hs hl hcompound hchildren
    rw [htable] at hrule
    rw [hs.kind_eq hi]
    exact .inr (Language.label_of_wrapper hrule)

/-- A label in C, and the statement behind it. -/
def labelled : Reduction where
  table := .c
  tree := .ofNodes
    #[⟨"translation_unit", none, ⟨0, 7⟩, ⟨0, 7⟩, ⟨0, 0⟩, none⟩,
      ⟨"labeled_statement", none, ⟨0, 7⟩, ⟨0, 7⟩, ⟨0, 0⟩, some 0⟩,
      ⟨"statement_identifier", some "label", ⟨0, 1⟩, ⟨0, 1⟩, ⟨0, 0⟩, some 1⟩,
      ⟨"expression_statement", none, ⟨3, 7⟩, ⟨3, 7⟩, ⟨0, 0⟩, some 1⟩] (by decide)
  range := ⟨0, 7⟩

theorem leaf_of_not_compound_labelled : labelled.selection = [1, 3] ∧
    ∃ o, labelled.outline = .ok o ∧ (o.node 0).compound = false ∧ (o.node 0).children = #[1] ∧
      (∃ i, labelled.selection[0]? = some i ∧ RuleTable.c.ruleFor labelled.tree i = .wrapper) ∧
      (o.node 1).children = #[] := by
  have hselection : labelled.selection = [1, 3] := by decide +kernel
  have houtline : labelled.outline = .ok
      ⟨#[⟨"labeled_statement", ⟨0, 7⟩, ⟨0, 7⟩, false, none, #[1]⟩,
        ⟨"expression_statement", ⟨3, 7⟩, ⟨3, 7⟩, false, some 0, #[]⟩], #[0]⟩ := by
    decide +kernel
  obtain ⟨-, hwrapper, hlanguage⟩ := (leaf_of_not_compound labelled).2 _ houtline
  refine ⟨hselection, _, houtline, rfl, rfl, hwrapper 0 (by decide) rfl (by decide), ?_⟩
  exact (hlanguage .c rfl 1 (by decide) rfl).resolve_right (by decide)

end Reduction

end StatementOutline
