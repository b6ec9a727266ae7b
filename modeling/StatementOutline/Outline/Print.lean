import StatementOutline.Outline.Basic

/-!
# Printing outlines

A statement is described on one line: kind, span, and whether it is compound. A listing indents
every statement by two blanks per depth and numbers the roots; a path shows one statement under
those around it.
-/

namespace StatementOutline

/-- Kind, half-open span and class of a statement. -/
def Statement.describe (s : Statement) : String :=
  s.kind ++ " [" ++ toString s.span.start ++ ", " ++ toString s.span.stop ++ ") " ++
    (if s.compound then "compound" else "atomic")

/-- Two blanks per level. -/
def indent (depth : Nat) : String :=
  String.ofList (List.replicate (2 * depth) ' ')

namespace Outline

/-- The line of statement `i` at a depth. -/
def line (o : Outline) (depth i : Nat) : String :=
  indent depth ++ (o.node i).describe ++ "\n"

/-- The listing of one root and everything below it, marked with the root's number. -/
def dumpRoot (o : Outline) (number root : Nat) : String :=
  "[" ++ toString number ++ "] " ++
    String.join ((o.preorderFrom 0 root).map fun (depth, i) => o.line depth i)

/-- The listing of the whole outline, one statement a line. -/
def dump (o : Outline) : String :=
  String.join (o.roots.toList.zipIdx.map fun (root, number) => o.dumpRoot number root)

/-- The statements from the outermost around statement `i` down to `i`. -/
def chain (o : Outline) (i : Nat) : List Nat :=
  (o.ancestors i).reverse ++ [i]

/-- The chain down to statement `i`: the first line begins with `lead`, each deeper one with `pad`
and two blanks per level. -/
def dumpPath (o : Outline) (i : Nat) (lead pad : String) : String :=
  String.join ((o.chain i).zipIdx.map fun (s, depth) =>
    (if depth = 0 then lead else "\n" ++ pad ++ indent depth) ++ (o.node s).describe)

end Outline

end StatementOutline
