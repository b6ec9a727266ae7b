import StatementOutline.Proofs.Outline.Selection
import StatementOutline.Proofs.Rule
import StatementOutline.Proofs.SyntaxTree.Deletion
import StatementOutline.Rule.Builtin

/-!
# Comments do not matter

A table ignores a kind of node if it looks through nodes of that kind and none of its searches is
for them: no shape check names the kind, and no collapse takes it for a block (`Ignores`). Leaves of
such kinds that sit in no field can be deleted, and the walk pushes and notes the same as before
(`tracks_visit`).

Every built-in table ignores the comments of its language (`ignores_comments`), so an outline does
not depend on them (`outline_without_comments`). In Ruby this rests on the kind being listed: what a
container holds counts as a statement otherwise.
-/

namespace StatementOutline

/-- No shape check of the rule looks for nodes of the kind. -/
def Rule.overlooks (kind : String) : Rule → Bool
  | .compoundIf (.contains kinds) => !kinds.contains kind
  | _ => true

/-- Nodes of the kind are looked through, and nothing in the table looks for them. -/
def RuleTable.Ignores (table : RuleTable) (kind : String) : Prop :=
  table.kindRule? kind = some .skip ∧
    (∀ entry ∈ table.kinds, entry.2.overlooks kind = true) ∧
    (∀ entry ∈ table.fields, entry.rule.overlooks kind = true) ∧
    ∀ c ∈ table.collapse, kind ∉ c.blocks

instance (table : RuleTable) (kind : String) : Decidable (table.Ignores kind) :=
  inferInstanceAs (Decidable (_ ∧ _ ∧ _ ∧ _))

/-- The kinds of node that are comments. -/
def Language.commentKinds : Language → List String
  | .java => ["line_comment", "block_comment"]
  | _ => ["comment"]

/-- Every language looks through its comments, and no shape or block asks for them. -/
theorem Language.ignores_comments (language : Language) :
    ∀ kind ∈ language.commentKinds, language.rules.Ignores kind := by
  cases language <;> decide +kernel

/-! ## Verdicts without what is ignored -/

/-- The nodes that are gone are leaves other than the root, sit in no field, and are of kinds that
the table ignores. -/
structure Erasable (table : RuleTable) (t : SyntaxTree) (gone : Nat → Bool) : Prop where
  root : 0 < t.size → gone 0 = false
  leaf : ∀ i < t.size, gone i = true → t.children i = []
  field : ∀ i < t.size, gone i = true → (t.node i).field = none
  ignored : ∀ i < t.size, gone i = true → table.Ignores (t.node i).kind

namespace Erasable

variable {table : RuleTable} {t : SyntaxTree} {gone : Nat → Bool} {c i : Nat}
  (h : Erasable table t gone)

include h

theorem ruleFor_gone (hi : i < t.size) (hgone : gone i = true) :
    table.ruleFor t i = .skip := by
  have hposition : ∀ parent, table.positionRule? parent none = none := by
    intro parent
    cases parent <;> rfl
  rw [RuleTable.ruleFor, RuleTable.resolve, h.field i hi hgone, hposition, (h.ignored i hi hgone).1]

theorem overlooks_ruleFor (hc : c < t.size) (hgone : gone c = true) (i : Nat) :
    (table.ruleFor t i).overlooks (t.node c).kind = true := by
  obtain ⟨-, hkinds, hfields, -⟩ := h.ignored c hc hgone
  exact RuleTable.resolve_of_entries (P := fun rule => rule.overlooks (t.node c).kind = true)
    (fun entry hentry _ => hkinds entry hentry) rfl hfields rfl _ _

/-- The rule of a kept node does not change: it keeps its kind, its field and its parent. -/
theorem ruleFor_without (hi : i ∈ t.keptIds gone) :
    table.ruleFor (t.without gone) (t.rank gone i) = table.ruleFor t i := by
  have hparent : (((t.without gone).node (t.rank gone i)).parent.map
      fun p => ((t.without gone).node p).kind) =
        (t.node i).parent.map fun p => (t.node p).kind := by
    rw [SyntaxTree.parent_without h.leaf hi, Option.map_map]
    cases hp : (t.node i).parent with
    | none => rfl
    | some p =>
      have hkept := SyntaxTree.parent_mem_keptIds h.leaf (t.parent?_eq_parent i ▸ hp)
      simp [SyntaxTree.node_without hkept, SyntaxTree.renumbered]
  rw [RuleTable.ruleFor, RuleTable.ruleFor, hparent, SyntaxTree.node_without hi]
  rfl

theorem holds_hasField_without (hi : i ∈ t.keptIds gone) (name : String) :
    (Shape.hasField name).holds (t.without gone) (t.rank gone i) =
      (Shape.hasField name).holds t i := by
  refine SyntaxTree.any_children_without h.leaf hi (fun c _ hc => ?_) fun c hc hgone => ?_
  · rw [SyntaxTree.node_without hc]
    rfl
  · rw [h.field c (SyntaxTree.lt_size_of_mem_children hc) hgone]
    rfl

/-- Searches for kinds that are not taken out find the same, by induction over the children. -/
theorem any_descendants_without {kinds : List String}
    (hkinds : ∀ c < t.size, gone c = true → (t.node c).kind ∉ kinds) (i : Nat) :
    i ∈ t.keptIds gone →
    ((t.without gone).descendants (t.rank gone i)).any
        (fun d => kinds.contains ((t.without gone).node d).kind) =
      (t.descendants i).any fun d => kinds.contains (t.node d).kind := by
  induction i using SyntaxTree.child_induction t with
  | step i ih =>
    intro hi
    rw [SyntaxTree.descendants_eq, SyntaxTree.descendants_eq, List.any_flatMap, List.any_flatMap]
    refine SyntaxTree.any_children_without h.leaf hi (fun c hc hkept => ?_) fun c hc hgone => ?_
    · rw [List.any_cons, List.any_cons, ih c hc hkept, SyntaxTree.node_without hkept]
      rfl
    · have hsize := SyntaxTree.lt_size_of_mem_children hc
      rw [SyntaxTree.descendants_eq, h.leaf c hsize hgone]
      simpa using hkinds c hsize hgone

/-- A node that is taken out is no block and has nothing below it, so the search for a block loses
nothing. -/
theorem hasBlock_without {blocks : List String}
    (hblocks : ∀ c < t.size, gone c = true → (t.node c).kind ∉ blocks) (i : Nat) :
    i ∈ t.keptIds gone →
    table.hasBlock (t.without gone) blocks (t.rank gone i) = table.hasBlock t blocks i := by
  induction i using SyntaxTree.child_induction t with
  | step i ih =>
    intro hi
    rw [RuleTable.hasBlock_eq, RuleTable.hasBlock_eq]
    refine SyntaxTree.any_children_without h.leaf hi (fun c hc hkept => ?_) fun c hc hgone => ?_
    · rw [ih c hc hkept, h.ruleFor_without hkept, SyntaxTree.node_without hkept]
      rfl
    · have hsize := SyntaxTree.lt_size_of_mem_children hc
      have hnone : table.hasBlock t blocks c = false := by
        rw [RuleTable.hasBlock_eq, h.leaf c hsize hgone]
        rfl
      simpa [hnone] using hblocks c hsize hgone

theorem shape_holds_without (hi : i ∈ t.keptIds gone) {shape : Shape}
    (hshape : table.ruleFor t i = .compoundIf shape) :
    shape.holds (t.without gone) (t.rank gone i) = shape.holds t i := by
  cases shape with
  | hasField name => exact h.holds_hasField_without hi name
  | contains kinds =>
    refine h.any_descendants_without (fun c hc hgone => ?_) i hi
    have hoverlooks := h.overlooks_ruleFor hc hgone i
    rw [hshape] at hoverlooks
    simpa [Rule.overlooks] using hoverlooks
  | multiline =>
    simp only [Shape.holds, SyntaxTree.node_without hi]
    rfl

theorem collapse?_without (hi : i ∈ t.keptIds gone) :
    table.collapse? (t.without gone) (t.rank gone i) = table.collapse? t i := by
  unfold RuleTable.collapse?
  cases hcollapse : table.collapse with
  | none => rfl
  | some c =>
    have hblock : table.hasBlock (t.without gone) c.blocks (t.rank gone i) =
        table.hasBlock t c.blocks i :=
      h.hasBlock_without (fun d hd hgone => (h.ignored d hd hgone).2.2.2 c hcollapse) i hi
    simp only [Option.filter, SyntaxTree.node_without hi, hblock]
    rfl

/-- The ruling on a node is kept with its note, which names kind and span and no id. -/
theorem classify_without (hi : i ∈ t.keptIds gone) :
    table.classify (t.without gone) (t.rank gone i) = table.classify t i := by
  have hopen : ∀ compound, table.openRuling (t.without gone) (t.rank gone i) compound =
      table.openRuling t i compound := by
    intro compound
    unfold RuleTable.openRuling
    rw [h.collapse?_without hi, SyntaxTree.node_without hi]
    rfl
  unfold RuleTable.classify
  rw [h.ruleFor_without hi]
  simp only [hopen]
  split
  · rfl
  · rfl
  · rfl
  · rfl
  · rfl
  · rfl
  · next shape hshape => rw [h.shape_holds_without hi hshape]

end Erasable

/-! ## The walk without what is ignored -/

/-- Two walks that nothing stopped have pushed and noted the same. -/
structure Walk.Tracks (w w' : Walk) : Prop where
  going : w.stopped = false
  going' : w'.stopped = false
  outline_eq : w'.outline = w.outline
  notes_eq : w'.notes = w.notes

namespace Walk.Tracks

variable {w w' : Walk} (h : w.Tracks w')

include h

theorem count : w.count.Tracks w'.count :=
  ⟨h.going, h.going', h.outline_eq, h.notes_eq⟩

theorem note (note : Option CollapseNote) : (w.note note).Tracks (w'.note note) := by
  cases note with
  | some n => exact ⟨h.going, h.going', h.outline_eq, by simp [Walk.note, h.notes_eq]⟩
  | none => exact h

theorem push (node : SyntaxNode) (compound : Bool) (owner : Option Nat) :
    (w.push node compound owner).Tracks (w'.push node compound owner) :=
  ⟨h.going, h.going', by simp [Walk.push, h.outline_eq], h.notes_eq⟩

end Walk.Tracks

namespace Reduction

variable {r : Reduction} {gone : Nat → Bool} {w w' : Walk} {c i : Nat}

/-- The reduction of the tree without the nodes that are gone. -/
def without (r : Reduction) (gone : Nat → Bool) : Reduction :=
  { r with tree := r.tree.without gone }

theorem visit_never (hn : r.signal = .never) (hw : w.stopped = false) (owner : Option Nat)
    (i : Nat) : r.visit owner w i =
      if r.inScope i then
        let noted := w.count.note (r.table.classify r.tree i).note
        match r.table.verdict r.tree i with
        | .sealed => noted
        | .skip => (r.tree.children i).foldl (r.visit owner) noted
        | .statement compound descend =>
          let pushed := noted.push (r.tree.node i) compound owner
          if descend then
            (r.tree.children i).foldl (r.visit (some noted.outline.size)) pushed
          else
            pushed
      else w.count := by
  rw [visit_eq, if_neg (by simp [hw]), if_neg (by simp [seesSignal_never hn])]
  cases r.inScope i <;> rfl

section Erased

variable (h : Erasable r.table r.tree gone) (hn : r.signal = .never)

include h hn

/-- The visit of a node that is gone leaves no trace but the count. -/
theorem tracks_visit_gone (hc : c < r.tree.size) (hgone : gone c = true) (hw : w.Tracks w')
    (owner : Option Nat) : (r.visit owner w c).Tracks w' := by
  have hrule := h.ruleFor_gone hc hgone
  have hruling : r.table.classify r.tree c = { verdict := .skip } := by
    simp [RuleTable.classify, hrule]
  have hcounted : w.count.Tracks w' := ⟨hw.going, hw.going', hw.outline_eq, hw.notes_eq⟩
  rw [visit_never hn hw.going]
  split
  · simpa [RuleTable.verdict, hruling, h.leaf c hc hgone, Walk.note] using hcounted
  · exact hcounted

/-- One walk over the children passes those that are gone, while the other does not meet them; over
the rest they go in step. -/
theorem tracks_foldl_visit {cs : List Nat} {owner : Option Nat} (hcs : ∀ c ∈ cs, c < r.tree.size)
    (hvisit : ∀ c ∈ cs, c ∈ r.tree.keptIds gone → ∀ w w' : Walk, w.Tracks w' →
      (r.visit owner w c).Tracks ((r.without gone).visit owner w' (r.tree.rank gone c)))
    (hw : w.Tracks w') :
    (cs.foldl (r.visit owner) w).Tracks
      (((cs.filter fun c => !gone c).map (r.tree.rank gone)).foldl
        ((r.without gone).visit owner) w') := by
  induction cs generalizing w w' with
  | nil => exact hw
  | cons c cs ih =>
    have hc := hcs c List.mem_cons_self
    have ih : ∀ {w w' : Walk}, w.Tracks w' → _ :=
      ih (fun d hd => hcs d (List.mem_cons_of_mem c hd))
        fun d hd => hvisit d (List.mem_cons_of_mem c hd)
    cases hgone : gone c with
    | true =>
      rw [List.filter_cons_of_neg (by simp [hgone]), List.foldl_cons]
      exact ih (tracks_visit_gone h hn hc hgone hw owner)
    | false =>
      rw [List.filter_cons_of_pos (by simp [hgone]), List.map_cons, List.foldl_cons,
        List.foldl_cons]
      exact ih (hvisit c List.mem_cons_self (SyntaxTree.mem_keptIds.2 ⟨hc, hgone⟩) w w' hw)

/-- Visits of a kept node in both trees keep the walks in step. -/
theorem tracks_visit (i : Nat) : i ∈ r.tree.keptIds gone → ∀ (owner : Option Nat) (w w' : Walk),
    w.Tracks w' →
      (r.visit owner w i).Tracks ((r.without gone).visit owner w' (r.tree.rank gone i)) := by
  induction i using SyntaxTree.child_induction r.tree with
  | step i ih =>
    intro hi owner w w' hw
    have hnode : (r.without gone).tree.node (r.tree.rank gone i) = r.tree.renumbered gone i :=
      SyntaxTree.node_without hi
    have hscope : (r.without gone).inScope (r.tree.rank gone i) = r.inScope i := by
      rw [inScope, hnode]
      rfl
    have hchildren : (r.without gone).tree.children (r.tree.rank gone i) = _ :=
      SyntaxTree.children_without h.leaf hi
    have hnoted := hw.count.note (r.table.classify r.tree i).note
    have hbelow : ∀ {owner owner' : Option Nat} {u u' : Walk}, owner' = owner → u.Tracks u' →
        ((r.tree.children i).foldl (r.visit owner) u).Tracks
          (((r.without gone).tree.children (r.tree.rank gone i)).foldl
            ((r.without gone).visit owner') u') := by
      rintro _ owner u u' rfl hu
      rw [hchildren]
      exact tracks_foldl_visit h hn (fun c hc => SyntaxTree.lt_size_of_mem_children hc)
        (fun c hc hkept => ih c hc hkept owner) hu
    have hruling : (r.without gone).table.classify (r.without gone).tree (r.tree.rank gone i) =
        r.table.classify r.tree i := h.classify_without hi
    have hverdict : (r.without gone).table.verdict (r.without gone).tree (r.tree.rank gone i) =
        r.table.verdict r.tree i := congrArg Ruling.verdict hruling
    have hn' : (r.without gone).signal = .never := hn
    rw [visit_never hn hw.going, visit_never hn' hw.going', hscope, hverdict, hruling, hnode]
    split
    · cases r.table.verdict r.tree i with
      | sealed => exact hnoted
      | skip => exact hbelow rfl hnoted
      | statement compound descend =>
        have hpushed := hnoted.push (r.tree.node i) compound owner
        have hsize := congrArg Outline.size hnoted.outline_eq
        cases descend with
        | false => exact hpushed
        | true => exact hbelow (congrArg some hsize) hpushed
    · exact hw.count

/-- The walk of the tree and the walk of what is left of it differ in the visits they count and in
nothing else. -/
theorem tracks_walk : r.walk.Tracks (r.without gone).walk := by
  have hroot : (r.without gone).tree.root? = r.tree.root? := SyntaxTree.root?_without h.root
  have hstart : Walk.Tracks {} {} := ⟨rfl, rfl, rfl, rfl⟩
  unfold walk
  rw [hroot, SyntaxTree.root?_eq]
  by_cases hsize : r.tree.size = 0
  · simp only [hsize, ↓reduceIte]
    exact hstart
  · have hpos := Nat.pos_of_ne_zero hsize
    have hkept : 0 ∈ r.tree.keptIds gone := SyntaxTree.mem_keptIds.2 ⟨hpos, h.root hpos⟩
    have hvisit := tracks_visit h hn 0 hkept none {} {} hstart
    rw [SyntaxTree.rank_zero hkept] at hvisit
    simpa only [hsize, ↓reduceIte] using hvisit

end Erased

/-- **Comments do not matter.** Reduce a tree by the table of a language, and once more without some
of its comments, leaves other than the root that sit in no field: the outline is the same, and so
are the collapses noted. -/
theorem outline_without_comments (language : Language) (r : Reduction) (gone : Nat → Bool)
    (htable : r.table = language.rules) (hn : r.signal = .never)
    (hcomments : ∀ i < r.tree.size, gone i = true → i ≠ 0 ∧ r.tree.children i = [] ∧
      (r.tree.node i).field = none ∧ (r.tree.node i).kind ∈ language.commentKinds) :
    ∃ o, r.outline = .ok o ∧ (r.without gone).outline = .ok o ∧
      (r.without gone).walk.notes = r.walk.notes := by
  have herasable : Erasable r.table r.tree gone := by
    refine ⟨?_, fun i hi hgone => (hcomments i hi hgone).2.1,
      fun i hi hgone => (hcomments i hi hgone).2.2.1, fun i hi hgone => ?_⟩
    · intro hpos
      by_contra hgone
      exact (hcomments 0 hpos (by simpa using hgone)).1 rfl
    · rw [htable]
      exact language.ignores_comments _ (hcomments i hi hgone).2.2.2
  obtain ⟨hgoing, hgoing', houtline, hnotes⟩ := tracks_walk herasable hn
  refine ⟨r.walk.outline, ?_, ?_, hnotes⟩
  · rw [outline, hgoing]
    rfl
  · rw [outline, hgoing', houtline]
    rfl

/-- A conditional in Ruby, with one comment before it and one in its body, both in containers. -/
def remarked : Reduction where
  table := .ruby
  tree := .ofNodes
    #[⟨"program", none, ⟨0, 24⟩, ⟨0, 24⟩, ⟨0, 4⟩, none⟩,
      ⟨"comment", none, ⟨0, 3⟩, ⟨0, 3⟩, ⟨0, 0⟩, some 0⟩,
      ⟨"if", none, ⟨4, 24⟩, ⟨4, 24⟩, ⟨1, 4⟩, some 0⟩,
      ⟨"identifier", some "condition", ⟨7, 8⟩, ⟨7, 8⟩, ⟨1, 1⟩, some 2⟩,
      ⟨"then", some "consequence", ⟨11, 20⟩, ⟨11, 20⟩, ⟨2, 3⟩, some 2⟩,
      ⟨"comment", none, ⟨11, 14⟩, ⟨11, 14⟩, ⟨2, 2⟩, some 4⟩,
      ⟨"identifier", none, ⟨17, 18⟩, ⟨17, 18⟩, ⟨3, 3⟩, some 4⟩] (by decide)
  range := ⟨0, 24⟩

theorem outline_without_comments_remarked :
    remarked.selection = [2, 3, 6] ∧
    (remarked.without fun i => i = 1 ∨ i = 5).selection = [1, 2, 4] ∧
    ∃ o, remarked.outline = .ok o ∧ (remarked.without fun i => i = 1 ∨ i = 5).outline = .ok o := by
  have hcomments : ∀ i < remarked.tree.size, decide (i = 1 ∨ i = 5) = true → i ≠ 0 ∧
      remarked.tree.children i = [] ∧ (remarked.tree.node i).field = none ∧
      (remarked.tree.node i).kind ∈ Language.ruby.commentKinds := by decide +kernel
  obtain ⟨o, ho, ho', -⟩ := outline_without_comments .ruby remarked _ rfl rfl hcomments
  exact ⟨by decide +kernel, by decide +kernel, o, ho, ho'⟩

end Reduction

end StatementOutline
