import StatementOutline.Span

/-!
# Outlines

An outline is a forest of statements. The place of a statement in the table is its id; statements
are numbered in document order, a parent before its children. The links are kept both ways: a
statement names its parent, and lists its children in order; `push` writes both.

`parentOf` and `childrenOf` follow the links only in the direction in which ids say they may go, to
a smaller id for a parent and to a larger one for a child. In every outline made by `push` that is
where the links go, and walking along them ends in any outline.
-/

namespace StatementOutline

/-- A statement of an outline. -/
structure Statement where
  kind : String
  /-- Offsets in the configured unit. -/
  span : Span
  /-- The same place in bytes. -/
  bytes : Span
  /-- The body may hold further statements. -/
  compound : Bool
  parent : Option Nat
  children : Array Nat
  deriving DecidableEq, Repr, Inhabited

/-- A forest of statements with the ids of its trees' roots, in order. -/
structure Outline where
  nodes : Array Statement := #[]
  roots : Array Nat := #[]
  deriving DecidableEq, Repr, Inhabited

namespace Outline

/-- The outline without statements. -/
def empty : Outline := {}

/-- Number of statements. -/
def size (o : Outline) : Nat :=
  o.nodes.size

/-- The statement with id `i`; a blank one if there is none. -/
def node (o : Outline) (i : Nat) : Statement :=
  o.nodes[i]?.getD default

/-- The statement `i` names `child` as one of its children. -/
def adopt (o : Outline) (i child : Nat) : Outline :=
  { o with nodes := o.nodes.modify i fun s => { s with children := s.children.push child } }

/-- Add a statement, whose id is the number of statements so far, and list it under its parent or
among the roots. -/
def push (o : Outline) (s : Statement) : Outline :=
  let id := o.size
  let grown := { o with nodes := o.nodes.push s }
  match s.parent with
  | some p => grown.adopt p id
  | none => { grown with roots := o.roots.push id }

@[simp] theorem size_adopt (o : Outline) (i child : Nat) : (o.adopt i child).size = o.size := by
  simp [adopt, size]

/-- A pushed statement is one more. -/
@[simp] theorem size_push (o : Outline) (s : Statement) : (o.push s).size = o.size + 1 := by
  unfold push
  split
  · rw [size_adopt]
    simp [size]
  · simp [size]

/-- The parent of statement `i`. -/
def parentOf (o : Outline) (i : Nat) : Option Nat :=
  (o.node i).parent.filter (· < i)

/-- The children of statement `i`, in order. -/
def childrenOf (o : Outline) (i : Nat) : Array Nat :=
  (o.node i).children.filter fun c => i < c && c < o.size

variable {o : Outline} {i j : Nat}

theorem parentOf_lt (h : o.parentOf i = some j) : j < i := by
  have := (Option.filter_eq_some_iff.1 h).2
  simpa using this

theorem lt_of_mem_childrenOf (h : j ∈ o.childrenOf i) : i < j ∧ j < o.size := by
  have := (Array.mem_filter.1 h).2
  simpa using this

/-- Walks go from a statement to its children, whose ids leave less of the table ahead. -/
theorem ahead_lt (h : j ∈ o.childrenOf i) : o.size - j < o.size - i := by
  have := lt_of_mem_childrenOf h
  omega

/-- The statements around statement `i`, innermost first. -/
def ancestors (o : Outline) (i : Nat) : List Nat :=
  match h : o.parentOf i with
  | some p =>
    have : p < i := parentOf_lt h
    p :: o.ancestors p
  | none => []
  termination_by i

/-- The statement `i` at the given depth and everything below it, in document order. -/
def preorderFrom (o : Outline) (depth i : Nat) : List (Nat × Nat) :=
  (depth, i) :: (o.childrenOf i).toList.attach.flatMap fun c => o.preorderFrom (depth + 1) c.1
  termination_by o.size - i
  decreasing_by exact ahead_lt (Array.mem_def.2 c.2)

theorem preorderFrom_eq (o : Outline) (depth i : Nat) : o.preorderFrom depth i =
    (depth, i) :: (o.childrenOf i).toList.flatMap (o.preorderFrom (depth + 1)) := by
  rw [preorderFrom, List.flatMap_subtype (g := o.preorderFrom (depth + 1)) fun _ _ => rfl,
    List.unattach_attach]

/-- All statements in document order, each with its depth. -/
def preorder (o : Outline) : List (Nat × Nat) :=
  o.roots.toList.flatMap (o.preorderFrom 0)

end Outline

end StatementOutline
