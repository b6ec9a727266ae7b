import Mathlib.Data.List.Basic
import StatementOutline.Proofs.Outline.Selection
import StatementOutline.Rule.Table.CFamily

/-!
# Tables that agree on a tree

A walk asks its table about the kinds that occur in the tree and about no others. Two tables `Agree`
on a kind if they resolve it to the same rule in every position and let it collapse in the same
manner. If they agree on all kinds of a tree, they give the same verdicts and the same walk,
whatever else they list (`classify_eq_of_agree`, `walk_byTable`).

The tables for C and C++ agree on every kind but sixteen (`agree_c_cpp_iff`), so a tree without
those has one outline in both languages (`outline_eq_in_cpp`). Some kinds are looked through because
C++ lists them, and in C because nothing does: neither table has containers, where the two would
differ.
-/

namespace StatementOutline

namespace RuleTable

variable {a b : RuleTable} {kind : String}

/-- How nodes of a kind collapse: the blocks that keep them open, and the flag they get. -/
def collapsing (table : RuleTable) (kind : String) : Option (List String × Bool) :=
  (table.collapse.filter fun c => c.kinds.contains kind).map fun c => (c.blocks, c.keepCompound)

/-- Both tables treat nodes of the kind alike, wherever they stand. -/
structure Agree (a b : RuleTable) (kind : String) : Prop where
  resolve_eq : ∀ parent field, a.resolve kind parent field = b.resolve kind parent field
  collapsing_eq : a.collapsing kind = b.collapsing kind

/-! ## Verdicts -/

/-- Whether a node collapses, and to what, is decided by what the table has on its kind. -/
theorem keepCompound_collapse? (table : RuleTable) (t : SyntaxTree) (i : Nat) :
    (table.collapse? t i).map (·.keepCompound) =
      ((table.collapsing (t.node i).kind).filter fun c =>
        (t.node i).lines.isSingleLine && !table.hasBlock t c.1 i).map (·.2) := by
  unfold collapse? collapsing
  cases table.collapse with
  | none => rfl
  | some c =>
    by_cases hkind : c.kinds.contains (t.node i).kind = true
    · by_cases hopen : ((t.node i).lines.isSingleLine && !table.hasBlock t c.blocks i) = true
      · simp_all [Option.filter]
      · simp_all [Option.filter]
    · simp_all [Option.filter]

section Agree

variable {t : SyntaxTree} (h : ∀ i, a.Agree b (t.node i).kind)

include h

theorem ruleFor_eq_of_agree (i : Nat) : a.ruleFor t i = b.ruleFor t i :=
  (h i).resolve_eq _ _

/-- The search for a block asks the rules of the nodes on its way, on which the tables agree. -/
theorem hasBlock_eq_of_agree (blocks : List String) (i : Nat) :
    a.hasBlock t blocks i = b.hasBlock t blocks i := by
  induction i using SyntaxTree.child_induction t with
  | step i ih =>
    rw [hasBlock_eq, hasBlock_eq, Bool.eq_iff_iff, List.any_eq_true, List.any_eq_true]
    apply exists_congr
    intro c
    apply and_congr_right
    intro hc
    rw [ruleFor_eq_of_agree h, ih c hc]

theorem keepCompound_eq_of_agree (i : Nat) :
    (a.collapse? t i).map (·.keepCompound) = (b.collapse? t i).map (·.keepCompound) := by
  rw [keepCompound_collapse?, keepCompound_collapse?, (h i).collapsing_eq]
  simp only [hasBlock_eq_of_agree h]

theorem openRuling_eq_of_agree (i : Nat) (compound : Bool) :
    a.openRuling t i compound = b.openRuling t i compound := by
  have hkeep := keepCompound_eq_of_agree h i
  unfold openRuling
  cases ha : a.collapse? t i with
  | none =>
    cases hb : b.collapse? t i with
    | none => rfl
    | some d => simp [ha, hb] at hkeep
  | some c =>
    cases hb : b.collapse? t i with
    | none => simp [ha, hb] at hkeep
    | some d =>
      have hcd : c.keepCompound = d.keepCompound := by simpa [ha, hb] using hkeep
      simp only [hcd]

/-- Tables that agree on all kinds of a tree make the same of its nodes. -/
theorem classify_eq_of_agree (i : Nat) : a.classify t i = b.classify t i := by
  unfold classify
  rw [ruleFor_eq_of_agree h]
  simp only [openRuling_eq_of_agree h]

end Agree

end RuleTable

/-! ## Walks -/

namespace Reduction

variable {r : Reduction} {table : RuleTable}

/-- The same reduction by another table. -/
def byTable (r : Reduction) (table : RuleTable) : Reduction :=
  { r with table }

section Agree

variable (h : ∀ i, r.table.Agree table (r.tree.node i).kind)

include h

theorem visit_byTable (i : Nat) :
    ∀ owner w, (r.byTable table).visit owner w i = r.visit owner w i := by
  induction i using SyntaxTree.child_induction r.tree with
  | step i ih =>
    intro owner w
    have hbelow : ∀ owner w, (r.tree.children i).foldl ((r.byTable table).visit owner) w =
        (r.tree.children i).foldl (r.visit owner) w := by
      intro owner w
      apply List.foldl_ext
      intro w c hc
      exact ih c hc owner w
    have hruling := RuleTable.classify_eq_of_agree h i
    have hsees : ∀ w, (r.byTable table).seesSignal w = r.seesSignal w := fun _ => rfl
    have hscope : (r.byTable table).inScope i = r.inScope i := rfl
    have htree : (r.byTable table).tree = r.tree := rfl
    have htable : (r.byTable table).table = table := rfl
    rw [visit_eq, visit_eq, hsees, hscope, htree, htable]
    simp only [RuleTable.verdict, ← hruling, hbelow]

/-- The walk, its notes and its outline are the same by a table that agrees on all kinds. -/
theorem walk_byTable : (r.byTable table).walk = r.walk := by
  have hroot : (r.byTable table).tree.root? = r.tree.root? := rfl
  unfold walk
  rw [hroot]
  cases r.tree.root? with
  | none => rfl
  | some root => exact visit_byTable h root none {}

end Agree

end Reduction

/-! ## C and C++ -/

namespace RuleTable

variable {a b : RuleTable} {kind : String}

theorem occupantRule_eq_of_getD
    (hkind : (a.kindRule? kind).getD .skip = (b.kindRule? kind).getD .skip) :
    a.occupantRule kind = b.occupantRule kind := by
  unfold occupantRule
  cases ha : a.kindRule? kind with
  | none =>
    cases hb : b.kindRule? kind with
    | none => rfl
    | some rule =>
      have hskip : rule = .skip := by simpa [ha, hb] using hkind.symm
      rw [hskip]
  | some rule =>
    cases hb : b.kindRule? kind with
    | none =>
      have hskip : rule = .skip := by simpa [ha, hb] using hkind
      rw [hskip]
    | some rule' =>
      have hrule : rule = rule' := by simpa [ha, hb] using hkind
      rw [hrule]

/-- Without containers, a kind that is not listed is looked through, as one that is listed so. -/
theorem resolve_eq_of_getD (hfields : a.fields = b.fields) (ha : a.containers = [])
    (hb : b.containers = [])
    (hkind : (a.kindRule? kind).getD .skip = (b.kindRule? kind).getD .skip)
    (parent field : Option String) : a.resolve kind parent field = b.resolve kind parent field := by
  have hposition : a.positionRule? parent field = b.positionRule? parent field := by
    unfold positionRule? fieldRule?
    rw [hfields]
  have hout : ∀ table : RuleTable, table.containers = [] →
      table.inContainer parent field = false := by
    intro table hnone
    unfold inContainer
    rw [hnone]
    split <;> rfl
  unfold resolve
  rw [hposition, hout a ha, hout b hb]
  split
  · exact occupantRule_eq_of_getD hkind
  · rfl
  · cases hka : a.kindRule? kind <;> cases hkb : b.kindRule? kind <;> simp_all

theorem kindRule?_eq_none (h : kind ∉ a.kinds.map (·.1)) : a.kindRule? kind = none := by
  rw [kindRule?, Option.map_eq_none_iff, List.find?_eq_none]
  intro entry hentry hkind
  apply h
  rw [← eq_of_beq hkind]
  exact List.mem_map_of_mem hentry

/-- Kinds to which C++ gives a rule of its own. -/
def cppKinds : List String :=
  ["class_specifier", "namespace_definition", "template_declaration", "concept_definition",
    "alias_declaration", "using_declaration", "static_assert_declaration",
    "namespace_alias_definition", "simple_requirement", "compound_requirement",
    "type_requirement", "throw_statement", "co_return_statement", "co_yield_statement",
    "for_range_loop", "try_statement"]

/-- Apart from the kinds that C++ adds, both tables have the same rule for a kind, where a missing
one counts as looked through. -/
theorem getD_kindRule?_c_cpp (h : kind ∉ cppKinds) :
    (c.kindRule? kind).getD .skip = (cpp.kindRule? kind).getD .skip := by
  have hlisted : ∀ kind ∈ c.kinds.map (·.1) ++ cpp.kinds.map (·.1), kind ∉ cppKinds →
      (c.kindRule? kind).getD .skip = (cpp.kindRule? kind).getD .skip := by decide +kernel
  by_cases hkind : kind ∈ c.kinds.map (·.1) ++ cpp.kinds.map (·.1)
  · exact hlisted kind hkind h
  · rw [List.mem_append, not_or] at hkind
    rw [kindRule?_eq_none hkind.1, kindRule?_eq_none hkind.2]

theorem collapsing_c_cpp (h : kind ≠ "for_range_loop") :
    c.collapsing kind = cpp.collapsing kind := by
  simp [collapsing, c, cpp, Option.filter, h]

/-- The two tables agree on a kind just when it is none of those that C++ adds. -/
theorem agree_c_cpp_iff : c.Agree cpp kind ↔ kind ∉ cppKinds := by
  constructor
  · intro h hkind
    have hdiffer : ∀ kind ∈ cppKinds, c.resolve kind none none ≠ cpp.resolve kind none none := by
      decide +kernel
    exact hdiffer kind hkind (h.resolve_eq none none)
  · intro h
    refine ⟨resolve_eq_of_getD rfl rfl rfl (getD_kindRule?_c_cpp h), collapsing_c_cpp ?_⟩
    rintro rfl
    exact h (by decide)

end RuleTable

/-- **C++ extends C.** On a tree without the kinds to which C++ gives rules of its own, the tables
for C and C++ resolve every node to the same rule and give the same verdict on it. A walk by either
is the same over every range, also one that is stopped, and one that nothing stops comes to the same
outline. -/
theorem outline_eq_in_cpp (t : SyntaxTree)
    (h : ∀ i < t.size, (t.node i).kind ∉ RuleTable.cppKinds) :
    (∀ i, RuleTable.c.ruleFor t i = RuleTable.cpp.ruleFor t i) ∧
    (∀ i, RuleTable.c.classify t i = RuleTable.cpp.classify t i) ∧
    ∀ range interval,
      (∃ o, Reduction.outline ⟨.c, t, range, interval, .never⟩ = .ok o ∧
        Reduction.outline ⟨.cpp, t, range, interval, .never⟩ = .ok o) ∧
      ∀ signal, Reduction.walk ⟨.c, t, range, interval, signal⟩ =
        Reduction.walk ⟨.cpp, t, range, interval, signal⟩ := by
  have hagree : ∀ i, RuleTable.c.Agree .cpp (t.node i).kind := by
    intro i
    rw [RuleTable.agree_c_cpp_iff]
    by_cases hi : i < t.size
    · exact h i hi
    · rw [SyntaxTree.node_of_size_le (Nat.le_of_not_lt hi)]
      decide
  have hwalk : ∀ range interval signal, Reduction.walk ⟨.c, t, range, interval, signal⟩ =
      Reduction.walk ⟨.cpp, t, range, interval, signal⟩ := fun range interval signal =>
    (Reduction.walk_byTable (r := ⟨.c, t, range, interval, signal⟩) hagree).symm
  refine ⟨RuleTable.ruleFor_eq_of_agree hagree, RuleTable.classify_eq_of_agree hagree,
    fun range interval => ⟨?_, hwalk range interval⟩⟩
  obtain ⟨o, ho, -⟩ := Reduction.exists_outline (r := ⟨.c, t, range, interval, .never⟩) rfl
  refine ⟨o, ho, ?_⟩
  rw [← ho, Reduction.outline, Reduction.outline, hwalk]

/-- A function with a loop on one line, and kinds that C++ lists and C does not. -/
def cLike : SyntaxTree :=
  .ofNodes
    #[⟨"translation_unit", none, ⟨0, 60⟩, ⟨0, 60⟩, ⟨0, 4⟩, none⟩,
      ⟨"declaration_list", none, ⟨0, 6⟩, ⟨0, 6⟩, ⟨0, 0⟩, some 0⟩,
      ⟨"declaration", none, ⟨0, 6⟩, ⟨0, 6⟩, ⟨0, 0⟩, some 1⟩,
      ⟨"function_definition", none, ⟨7, 60⟩, ⟨7, 60⟩, ⟨1, 4⟩, some 0⟩,
      ⟨"struct_specifier", some "type", ⟨7, 15⟩, ⟨7, 15⟩, ⟨1, 1⟩, some 3⟩,
      ⟨"compound_statement", some "body", ⟨20, 60⟩, ⟨20, 60⟩, ⟨1, 4⟩, some 3⟩,
      ⟨"for_statement", none, ⟨22, 34⟩, ⟨22, 34⟩, ⟨2, 2⟩, some 5⟩,
      ⟨"expression_statement", some "body", ⟨31, 34⟩, ⟨31, 34⟩, ⟨2, 2⟩, some 6⟩,
      ⟨"catch_clause", none, ⟨36, 58⟩, ⟨36, 58⟩, ⟨3, 3⟩, some 5⟩,
      ⟨"return_statement", none, ⟨45, 54⟩, ⟨45, 54⟩, ⟨3, 3⟩, some 8⟩] (by decide)

theorem outline_eq_in_cpp_cLike :
    (∀ i < cLike.size, (cLike.node i).kind ∉ RuleTable.cppKinds) ∧
    RuleTable.c.kindRule? "catch_clause" = none ∧
    RuleTable.cpp.kindRule? "catch_clause" = some .skip ∧
    (⟨.c, cLike, ⟨0, 60⟩, 256, .never⟩ : Reduction).selection = [2, 3, 5, 6, 9] ∧
    ∃ o, Reduction.outline ⟨.c, cLike, ⟨0, 60⟩, 256, .never⟩ = .ok o ∧
      Reduction.outline ⟨.cpp, cLike, ⟨0, 60⟩, 256, .never⟩ = .ok o := by
  have hkinds : ∀ i < cLike.size, (cLike.node i).kind ∉ RuleTable.cppKinds := by decide +kernel
  obtain ⟨-, -, houtline⟩ := outline_eq_in_cpp cLike hkinds
  exact ⟨hkinds, by decide, by decide, by decide +kernel, (houtline ⟨0, 60⟩ 256).1⟩

end StatementOutline
