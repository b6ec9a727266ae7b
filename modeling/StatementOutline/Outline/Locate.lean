import StatementOutline.Outline.Basic
import StatementOutline.PartitionPoint

/-!
# Locating an offset

Spans are half-open, so an offset on the border of two siblings belongs to the second, and a
zero-width statement owns no offset. Siblings are in order and apart, so at each level at most one
can own the offset: the first that ends behind it. `locate` follows these down to the innermost.
-/

namespace StatementOutline.Outline

/-- The statement of one level that owns the offset, among ids whose spans are in order. -/
def ownerAmong (o : Outline) (level : Array Nat) (offset : Nat) : Option Nat :=
  let passed := partitionPoint (fun id => (o.node id).span.stop ≤ offset) level
  (level[passed]?).filter fun id => (o.node id).span.contains offset

variable {o : Outline} {level : Array Nat} {offset i : Nat}

theorem mem_of_ownerAmong (h : o.ownerAmong level offset = some i) : i ∈ level :=
  Array.mem_of_getElem? (Option.filter_eq_some_iff.1 h).1

/-- The innermost statement that owns the offset, at or below statement `i`, which owns it. -/
def innermostFrom (o : Outline) (offset i : Nat) : Nat :=
  match h : o.ownerAmong (o.childrenOf i) offset with
  | some c =>
    have : o.size - c < o.size - i := ahead_lt (mem_of_ownerAmong h)
    o.innermostFrom offset c
  | none => i
  termination_by o.size - i

/-- The innermost statement that owns the offset. -/
def locate (o : Outline) (offset : Nat) : Option Nat :=
  (o.ownerAmong o.roots offset).map (o.innermostFrom offset)

/-- All statements that own the offset, by a scan of the whole table. -/
def owners (o : Outline) (offset : Nat) : List Nat :=
  (List.range o.size).filter fun i => (o.node i).span.contains offset

end StatementOutline.Outline
