import StatementOutline.Span

/-!
# Syntax trees

A syntax tree is a table of nodes. The place of a node in the table is its id, every node names its
parent by id, and a parent always stands before its children (`ParentsFirst`), so the links cannot
run in a circle. Node 0 is the root. A node without a parent other than node 0 is not reachable.

The children of a node are listed in a table of their own, which grows with the nodes: each node
that names a parent goes to the end of that parent's list (`listChildren`). So the children are the
ids that name the node as their parent, in increasing order (`listChildren_eq`); everything below
reads them through `mem_children`.
-/

namespace StatementOutline

/-- A named node of a syntax tree. `field` is the role the grammar gives it in its parent. -/
structure SyntaxNode where
  kind : String
  field : Option String
  /-- Offsets in the configured unit. -/
  span : Span
  /-- The same place in bytes. -/
  bytes : Span
  /-- First and last line. -/
  lines : Span
  parent : Option Nat
  deriving DecidableEq, Repr, Inhabited

/-- Every node stands after its parent. -/
def ParentsFirst (nodes : Array SyntaxNode) : Prop :=
  ∀ (i : Nat) (h : i < nodes.size), ∀ p ∈ nodes[i].parent, p < i

instance (nodes : Array SyntaxNode) : Decidable (ParentsFirst nodes) :=
  inferInstanceAs (Decidable (∀ (i : Nat) (h : i < nodes.size), ∀ p ∈ nodes[i].parent, p < i))

/-- The parent that entry `i` of a table names. -/
def parentIn (nodes : Array SyntaxNode) (i : Nat) : Option Nat :=
  nodes[i]?.bind (·.parent)

/-- The ids below `k` that name `i` as their parent, in increasing order. -/
def childIdsBelow (nodes : Array SyntaxNode) (k i : Nat) : List Nat :=
  (List.range k).filter fun j => parentIn nodes j == some i

/-- The ids that name `i` as their parent, in increasing order. -/
def childIds (nodes : Array SyntaxNode) (i : Nat) : List Nat :=
  childIdsBelow nodes nodes.size i

/-- The lists of children with one node more: it has none yet, and comes last in the list of its
parent. -/
def addChild (lists : Array (List Nat)) : Option Nat → Array (List Nat)
  | some p => (lists.push []).modify p (· ++ [lists.size])
  | none => lists.push []

/-- The lists of children of the nodes in a table, made node by node. -/
def listChildren (nodes : List SyntaxNode) : Array (List Nat) :=
  nodes.foldl (fun lists node => addChild lists node.parent) #[]

theorem childIdsBelow_succ (nodes : Array SyntaxNode) (k i : Nat) :
    childIdsBelow nodes (k + 1) i =
      childIdsBelow nodes k i ++ if parentIn nodes k = some i then [k] else [] := by
  unfold childIdsBelow
  rw [List.range_succ, List.filter_append]
  by_cases h : parentIn nodes k = some i
  · simp [h]
  · simp [h]

theorem childIdsBelow_self {nodes : Array SyntaxNode} (h : ParentsFirst nodes) (k : Nat) :
    childIdsBelow nodes k k = [] := by
  refine List.filter_eq_nil_iff.2 fun j hj hparent => ?_
  have hlt := List.mem_range.1 hj
  obtain ⟨node, hnode, hp⟩ := Option.bind_eq_some_iff.1 (eq_of_beq hparent)
  obtain ⟨hsize, rfl⟩ := Array.getElem?_eq_some_iff.1 hnode
  exact Nat.lt_asymm hlt (h j hsize k hp)

/-- One node more: its own list starts empty, and of the others only that of its parent grows. -/
theorem addChild_childIdsBelow {nodes : Array SyntaxNode} (h : ParentsFirst nodes) {k : Nat}
    (hk : k < nodes.size) :
    addChild ((Array.range k).map (childIdsBelow nodes k)) nodes[k].parent =
      (Array.range (k + 1)).map (childIdsBelow nodes (k + 1)) := by
  have hparent : parentIn nodes k = nodes[k].parent := by simp [parentIn, hk]
  have hpush : ((Array.range k).map (childIdsBelow nodes k)).push [] =
      (Array.range (k + 1)).map (childIdsBelow nodes k) := by
    rw [Array.range_succ, Array.map_append]
    simp [childIdsBelow_self h]
  cases hp : nodes[k].parent with
  | none =>
    rw [addChild, hpush]
    refine Array.map_congr_left fun i _ => ?_
    simp [childIdsBelow_succ, hparent, hp]
  | some p =>
    rw [addChild, hpush]
    refine Array.ext (by simp) fun i hi hi' => ?_
    have hsize : ((Array.range k).map (childIdsBelow nodes k)).size = k := by simp
    simp only [Array.getElem_modify, Array.getElem_map, Array.getElem_range, childIdsBelow_succ,
      hparent, hp, hsize, Option.some.injEq]
    split
    · next hpi => rfl
    · exact (List.append_nil _).symm

/-- The lists that grow with the nodes hold the ids that name each node as their parent. -/
theorem listChildren_eq {nodes : Array SyntaxNode} (h : ParentsFirst nodes) :
    listChildren nodes.toList = (Array.range nodes.size).map (childIds nodes) := by
  have htake : ∀ k ≤ nodes.size, listChildren (nodes.toList.take k) =
      (Array.range k).map (childIdsBelow nodes k) := by
    intro k hk
    induction k with
    | zero => simp [listChildren]
    | succ k ih =>
      have hlt : k < nodes.toList.length := hk
      have hnode : nodes.toList[k] = nodes[k] := rfl
      rw [List.take_succ_eq_append_getElem hlt, listChildren, List.foldl_append]
      show addChild (listChildren (nodes.toList.take k)) nodes.toList[k].parent = _
      rw [ih (Nat.le_of_lt hk), hnode, addChild_childIdsBelow h hk]
  have hall := htake nodes.size (Nat.le_refl _)
  rwa [← Array.length_toList, List.take_length, Array.length_toList] at hall

/-- A table of nodes in which every parent comes first, with the children of every node. -/
structure SyntaxTree where
  nodes : Array SyntaxNode
  childLists : Array (List Nat)
  parentsFirst : ParentsFirst nodes
  childLists_eq : childLists = (Array.range nodes.size).map (childIds nodes)

namespace SyntaxTree

/-- The tree of a table of nodes whose parents come first. -/
def ofNodes (nodes : Array SyntaxNode) (h : ParentsFirst nodes) : SyntaxTree :=
  ⟨nodes, listChildren nodes.toList, h, listChildren_eq h⟩

/-- The tree of a table of nodes, unless some parent comes too late. -/
def ofNodes? (nodes : Array SyntaxNode) : Option SyntaxTree :=
  if h : ParentsFirst nodes then some (ofNodes nodes h) else none

/-- Number of nodes. -/
def size (t : SyntaxTree) : Nat :=
  t.nodes.size

/-- The tree has no nodes. -/
def isEmpty (t : SyntaxTree) : Bool :=
  t.size == 0

/-- The root, unless the tree is empty. -/
def root? (t : SyntaxTree) : Option Nat :=
  if t.isEmpty then none else some 0

/-- The node with id `i`; a blank one if there is none. -/
def node (t : SyntaxTree) (i : Nat) : SyntaxNode :=
  t.nodes[i]?.getD default

/-- The parent of node `i`. -/
def parent? (t : SyntaxTree) (i : Nat) : Option Nat :=
  parentIn t.nodes i

/-- The children of node `i`, in increasing order. -/
def children (t : SyntaxTree) (i : Nat) : List Nat :=
  t.childLists[i]?.getD []

variable {t : SyntaxTree} {i j : Nat}

theorem parent_lt (h : t.parent? j = some i) : i < j ∧ j < t.size := by
  unfold parent? parentIn at h
  obtain ⟨node, hn, hp⟩ := Option.bind_eq_some_iff.1 h
  obtain ⟨hj, rfl⟩ := Array.getElem?_eq_some_iff.1 hn
  exact ⟨t.parentsFirst j hj i hp, hj⟩

theorem children_eq_childIds (t : SyntaxTree) (i : Nat) : t.children i = childIds t.nodes i := by
  unfold children
  rw [t.childLists_eq]
  by_cases h : i < t.nodes.size
  · simp [h]
  · have : childIds t.nodes i = [] := by
      refine List.filter_eq_nil_iff.2 fun j hj hp => ?_
      have := parent_lt (t := t) (i := i) (j := j) (eq_of_beq hp)
      have := List.mem_range.1 hj
      omega
    simp [h, this]

/-- The children of `i` are exactly the nodes that name `i` as their parent. -/
theorem mem_children : j ∈ t.children i ↔ t.parent? j = some i := by
  rw [children_eq_childIds]
  simp only [childIds, childIdsBelow, List.mem_filter, List.mem_range, beq_iff_eq]
  exact ⟨And.right, fun h => ⟨(parent_lt h).2, h⟩⟩

theorem lt_of_mem_children (h : j ∈ t.children i) : i < j :=
  (parent_lt (mem_children.1 h)).1

theorem lt_size_of_mem_children (h : j ∈ t.children i) : j < t.size :=
  (parent_lt (mem_children.1 h)).2

/-- Children are listed in increasing order, each once. -/
theorem pairwise_children (t : SyntaxTree) (i : Nat) : (t.children i).Pairwise (· < ·) := by
  rw [children_eq_childIds]
  exact List.pairwise_lt_range.filter _

/-- Walks go from a node to its children, whose ids leave less of the table ahead. -/
theorem ahead_lt (h : j ∈ t.children i) : t.size - j < t.size - i := by
  have := lt_of_mem_children h
  have := lt_size_of_mem_children h
  omega

/-- The strict descendants of `i`, depth first, each child before its own descendants. -/
def descendants (t : SyntaxTree) (i : Nat) : List Nat :=
  (t.children i).attach.flatMap fun c => c.1 :: t.descendants c.1
  termination_by t.size - i
  decreasing_by exact ahead_lt c.2

theorem descendants_eq (t : SyntaxTree) (i : Nat) :
    t.descendants i = (t.children i).flatMap fun c => c :: t.descendants c := by
  rw [descendants, List.flatMap_subtype (g := fun c => c :: t.descendants c) fun _ _ => rfl,
    List.unattach_attach]

end SyntaxTree

end StatementOutline
