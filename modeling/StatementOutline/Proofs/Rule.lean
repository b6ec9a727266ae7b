import StatementOutline.Rule.Basic

/-!
# Where a rule comes from

The rule of a node is one that its table lists, for the node's kind or for a field, or it is one of
the two that a table falls back on. So what holds of the entries of a table holds of every rule it
resolves to (`resolve_of_entries`), and a kind that is listed gives way to fields only
(`resolve_of_kindRule?`).
-/

namespace StatementOutline.RuleTable

variable {table : RuleTable} {kind parent field : String} {rule : Rule}

theorem mem_of_kindRule? (h : table.kindRule? kind = some rule) : (kind, rule) ∈ table.kinds := by
  obtain ⟨entry, hentry, rfl⟩ := Option.map_eq_some_iff.1 h
  have hkind : entry.1 = kind := by simpa using List.find?_some hentry
  subst hkind
  exact List.mem_of_find?_eq_some hentry

theorem mem_of_fieldRule? (h : table.fieldRule? parent field = some rule) :
    ∃ entry ∈ table.fields, entry.rule = rule := by
  obtain ⟨entry, hentry, rfl⟩ := Option.map_eq_some_iff.1 h
  exact ⟨entry, List.mem_of_find?_eq_some hentry, rfl⟩

theorem mem_of_positionRule? {parent field : Option String}
    (h : table.positionRule? parent field = some rule) :
    ∃ entry ∈ table.fields, entry.rule = rule := by
  unfold positionRule? at h
  split at h
  · exact mem_of_fieldRule? h
  · cases h

section Entries

variable {P : Rule → Prop} (hkinds : ∀ entry ∈ table.kinds, entry.1 = kind → P entry.2)
  (hatomic : P .atomic)

include hkinds hatomic

/-- What holds of the rules for kinds and of being atomic holds of a node that is a statement by
position. -/
theorem occupantRule_of_entries : P (table.occupantRule kind) := by
  have hlisted : ∀ rule, table.kindRule? kind = some rule → P rule := fun rule h =>
    hkinds _ (mem_of_kindRule? h) rfl
  unfold occupantRule
  split
  · exact hatomic
  · exact hlisted _ ‹_›
  · exact hlisted _ ‹_›
  · exact hlisted _ ‹_›
  · exact hatomic

/-- A property of all entries of a table that concern a kind is one of every rule it can get. -/
theorem resolve_of_entries (hfields : ∀ entry ∈ table.fields, P entry.rule) (hskip : P .skip)
    (parent field : Option String) : P (table.resolve kind parent field) := by
  unfold resolve
  split
  · exact occupantRule_of_entries hkinds hatomic
  · next rule _ hrule =>
    obtain ⟨entry, hentry, rfl⟩ := mem_of_positionRule? hrule
    exact hfields entry hentry
  · split
    · next rule hrule => exact hkinds _ (mem_of_kindRule? hrule) rfl
    · split
      · exact hatomic
      · exact hskip

end Entries

/-- A listed kind keeps its rule, unless the node's field has one. -/
theorem resolve_of_kindRule? (h : table.kindRule? kind = some rule)
    (hfields : ∀ entry ∈ table.fields, entry.rule ≠ .byKind) (parent field : Option String) :
    table.resolve kind parent field = rule ∨
      ∃ entry ∈ table.fields, entry.rule = table.resolve kind parent field := by
  unfold resolve
  split
  · next hrule =>
    obtain ⟨entry, hentry, hby⟩ := mem_of_positionRule? hrule
    exact absurd hby (hfields entry hentry)
  · next hrule => exact .inr (mem_of_positionRule? hrule)
  · rw [h]
    exact .inl rfl

end StatementOutline.RuleTable
