import StatementOutline.Rule.Basic

/-!
# Python and Go

In Python an indented body is a statement of its own, so it nests one level below the statement
that owns it; a body on the header line collapses into its owner, which stays compound. In Go the
headers of loops, and initializers, hold no statements.
-/

namespace StatementOutline.RuleTable

/-- Rules for Python. -/
def python : RuleTable where
  kinds := List.flatten [
    Rule.each .atomic ["expression_statement", "import_statement", "import_from_statement",
      "future_import_statement", "print_statement", "assert_statement", "delete_statement",
      "raise_statement", "pass_statement", "break_statement", "continue_statement",
      "global_statement", "nonlocal_statement", "exec_statement", "return_statement"],
    Rule.each .compound ["block", "if_statement", "for_statement", "while_statement",
      "try_statement", "with_statement", "function_definition", "class_definition",
      "decorated_definition", "match_statement"],
    Rule.each .skip ["comment", "elif_clause", "else_clause", "except_clause",
      "except_group_clause", "finally_clause", "case_clause"]]
  fields := []
  containers := []
  collapse := some {
    kinds := ["if_statement", "for_statement", "while_statement", "with_statement"]
    blocks := []
    keepCompound := true }

/-- Rules for Go. -/
def go : RuleTable where
  kinds := List.flatten [
    -- Top level
    Rule.each .atomic ["package_clause", "import_declaration", "const_declaration",
      "var_declaration", "type_declaration"],
    Rule.each .compound ["function_declaration", "method_declaration"],
    -- Simple statements
    Rule.each .atomic ["expression_statement", "send_statement", "inc_statement",
      "dec_statement", "assignment_statement", "short_var_declaration", "return_statement",
      "go_statement", "defer_statement", "break_statement", "continue_statement",
      "goto_statement", "fallthrough_statement", "empty_statement"],
    -- Statements with bodies
    Rule.each .compound ["block", "if_statement", "for_statement", "expression_switch_statement",
      "type_switch_statement", "select_statement", "labeled_statement"],
    -- Loop headers
    Rule.each .sealed ["for_clause", "range_clause"],
    -- Looked through
    Rule.each .skip ["comment", "expression_case", "type_case", "default_case",
      "communication_case"]]
  fields := [
    ⟨"if_statement", "initializer", .sealed⟩,
    ⟨"expression_switch_statement", "initializer", .sealed⟩,
    ⟨"type_switch_statement", "initializer", .sealed⟩,
    ⟨"communication_case", "communication", .sealed⟩]
  containers := []
  collapse := none

end StatementOutline.RuleTable
