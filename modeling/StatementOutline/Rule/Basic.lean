/-!
# Rules

A rule says what a syntax node contributes to an outline, and a rule table holds the rules of one
grammar. `RuleTable.resolve` finds the rule of a node from three things only: its kind, its field,
and its parent's kind. The position decides first, then the kind, then whether the parent is a
container; anything else is looked through.
-/

namespace StatementOutline

/-- A check on the shape of a node. -/
inductive Shape where
  /-- Some child sits in the named field. -/
  | hasField (name : String)
  /-- Some strict descendant has one of the kinds. -/
  | contains (kinds : List String)
  /-- The node spans more than one line. -/
  | multiline
  deriving DecidableEq, Repr

/-- How a syntax node takes part in an outline. -/
inductive Rule where
  /-- Not a statement; its children stand in its place. -/
  | skip
  /-- Not a statement, and nothing below it is one. -/
  | sealed
  /-- A statement without nested statements. -/
  | atomic
  /-- A statement whose body may hold further statements. -/
  | compound
  /-- Compound if the shape fits, atomic otherwise. -/
  | compoundIf (shape : Shape)
  /-- Not compound, but carries the statement it wraps, as a label does. -/
  | wrapper
  /-- By position only: whatever stands here is a statement, of the sort its kind says. -/
  | byKind
  deriving DecidableEq, Repr

/-- A rule for the occupants of a field. The parent kind `*` matches every parent. -/
structure FieldRule where
  parent : String
  field : String
  rule : Rule
  deriving DecidableEq, Repr

/-- Single-line collapse: a construct written on one line without a block is one statement. -/
structure Collapse where
  /-- Kinds that collapse. -/
  kinds : List String
  /-- Kinds of body that keep a construct open even on one line. -/
  blocks : List String
  /-- Whether a collapsed statement still counts as compound. -/
  keepCompound : Bool
  deriving DecidableEq, Repr

/-- The rules of one grammar. Earlier entries win over later ones. -/
structure RuleTable where
  kinds : List (String × Rule)
  fields : List FieldRule
  /-- Kinds whose children without a field are statements. -/
  containers : List String
  collapse : Option Collapse
  deriving DecidableEq, Repr

/-- The rule applies to a field of a parent of this kind. -/
def FieldRule.applies (r : FieldRule) (parent field : String) : Bool :=
  (r.parent == parent || r.parent == "*") && r.field == field

/-- The same rule for each of the kinds. -/
def Rule.each (rule : Rule) (kinds : List String) : List (String × Rule) :=
  kinds.map fun kind => (kind, rule)

namespace RuleTable

/-- The first rule listed for a kind. -/
def kindRule? (table : RuleTable) (kind : String) : Option Rule :=
  (table.kinds.find? fun entry => entry.1 == kind).map (·.2)

/-- The first rule listed for a field of a parent of this kind. -/
def fieldRule? (table : RuleTable) (parent field : String) : Option Rule :=
  (table.fields.find? fun r => r.applies parent field).map (·.rule)

/-- The rule for a position: both the parent's kind and the field have to be known. -/
def positionRule? (table : RuleTable) : (parent field : Option String) → Option Rule
  | some parent, some field => table.fieldRule? parent field
  | _, _ => none

/-- The rule of a node that is a statement by position: the rule of its kind where that makes it a
statement, atomic otherwise. -/
def occupantRule (table : RuleTable) (kind : String) : Rule :=
  match table.kindRule? kind with
  | some .atomic => .atomic
  | some .compound => .compound
  | some (.compoundIf shape) => .compoundIf shape
  | some .wrapper => .wrapper
  | _ => .atomic

/-- A node without a field under a container. -/
def inContainer (table : RuleTable) : (parent field : Option String) → Bool
  | some parent, none => table.containers.contains parent
  | _, _ => false

/-- The rule of a node of the given kind in its position. -/
def resolve (table : RuleTable) (kind : String) (parent field : Option String) : Rule :=
  match table.positionRule? parent field with
  | some .byKind => table.occupantRule kind
  | some rule => rule
  | none =>
    match table.kindRule? kind with
    | some rule => rule
    | none => if table.inContainer parent field then .atomic else .skip

end RuleTable

end StatementOutline
