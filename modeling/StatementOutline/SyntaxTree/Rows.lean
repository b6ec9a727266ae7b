import StatementOutline.Offset.UnitMap
import StatementOutline.SyntaxTree.Basic

/-!
# Trees from listed rows

A grammar delivers its tree as a list of rows in preorder, each with its depth. Rows of anonymous
tokens (punctuation, keywords) are dropped, and a named node below an anonymous one is attached to
the nearest named node above it. Positions arrive in bytes and are carried over in the chosen unit
as well.

The walk over the rows keeps, for every level of depth above the current row, the nearest named
node at or above that level. A row of depth `d` has exactly `d` levels above it, so coming back up
from a deep row means cutting this list to its `d` outermost entries.
-/

namespace StatementOutline

/-- One node of a grammar's tree as listed: named or anonymous, with its depth below the root. -/
structure SyntaxRow where
  depth : Nat
  named : Bool
  kind : String
  field : Option String
  bytes : Span
  lines : Span
  deriving DecidableEq, Repr, Inhabited

/-- The node of a row, in the unit of `map`, under the given parent. -/
def SyntaxRow.toNode (row : SyntaxRow) (map : UnitMap) (parent : Option Nat) : SyntaxNode where
  kind := row.kind
  field := row.field
  span := ⟨map.toUnits row.bytes.start, map.toUnits row.bytes.stop⟩
  bytes := row.bytes
  lines := row.lines
  parent := parent

/-- The `depth` outermost entries of a lineage, which lists the innermost level first. -/
def levelsAbove (lineage : List (Option Nat)) (depth : Nat) : List (Option Nat) :=
  lineage.drop (lineage.length - depth)

/-- The named nodes of the remaining rows, when the next node has id `next` and `lineage` holds the
nearest named node at or above each open level, innermost first. -/
def namedNodes (map : UnitMap) (next : Nat) (lineage : List (Option Nat)) :
    List SyntaxRow → List SyntaxNode
  | [] => []
  | row :: rows =>
    let above := levelsAbove lineage row.depth
    let parent := above.head?.join
    if row.named then
      row.toNode map parent :: namedNodes map (next + 1) (some next :: above) rows
    else
      namedNodes map next (parent :: above) rows

theorem mem_levelsAbove {lineage : List (Option Nat)} {depth : Nat} {p : Option Nat}
    (h : p ∈ levelsAbove lineage depth) : p ∈ lineage :=
  List.mem_of_mem_drop h

/-- A parent taken from a lineage is one of its entries. -/
theorem mem_of_head?_join {lineage : List (Option Nat)} {p : Nat}
    (h : lineage.head?.join = some p) : some p ∈ lineage :=
  List.mem_of_mem_head? (Option.join_eq_some_iff.1 h)

/-- Parents have smaller ids than their children, provided the lineage holds earlier ids only. -/
theorem parent_lt_of_namedNodes {map : UnitMap} {rows : List SyntaxRow} :
    ∀ {next : Nat} {lineage : List (Option Nat)}, (∀ p, some p ∈ lineage → p < next) →
      ∀ {k : Nat} {node : SyntaxNode}, (namedNodes map next lineage rows)[k]? = some node →
        ∀ p ∈ node.parent, p < next + k := by
  induction rows with
  | nil => intro next lineage _ k node h; simp [namedNodes] at h
  | cons row rows ih =>
    intro next lineage hl k node h p hp
    have above : ∀ p, some p ∈ levelsAbove lineage row.depth → p < next :=
      fun p hp => hl p (mem_levelsAbove hp)
    rw [namedNodes] at h
    split at h
    · cases k with
      | zero =>
        simp only [List.getElem?_cons_zero, Option.some.injEq] at h
        subst h
        exact above p (mem_of_head?_join hp)
      | succ k =>
        rw [List.getElem?_cons_succ] at h
        have := ih (fun q hq => ?_) h p hp
        · omega
        · rcases List.mem_cons.1 hq with e | hq
          · cases e; exact Nat.lt_succ_self _
          · exact Nat.lt_succ_of_lt (above q hq)
    · refine ih (fun q hq => ?_) h p hp
      rcases List.mem_cons.1 hq with e | hq
      · exact above q (mem_of_head?_join e.symm)
      · exact above q hq

namespace SyntaxTree

/-- The tree of the named rows. -/
def ofRows (map : UnitMap) (rows : List SyntaxRow) : SyntaxTree :=
  ofNodes (namedNodes map 0 [] rows).toArray fun i h p hp => by
    have := @parent_lt_of_namedNodes map rows 0 [] (by simp) i
      (namedNodes map 0 [] rows).toArray[i] (by simp) p hp
    omega

end SyntaxTree

end StatementOutline
