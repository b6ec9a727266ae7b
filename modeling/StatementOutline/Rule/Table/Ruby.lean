import StatementOutline.Rule.Basic

/-!
# Ruby

Nearly every expression can stand as a statement, so statements are found by position: children
of a container that sit in no field, conditions, subjects of a `case`, and bodies of modifiers. The
kinds then only decide which of them are compound.
-/

namespace StatementOutline.RuleTable

/-- Rules for Ruby. -/
def ruby : RuleTable where
  kinds := List.flatten [
    Rule.each .compound ["if", "unless", "while", "until", "for", "case", "case_match", "when",
      "in_clause", "begin", "class", "module", "method", "singleton_method", "singleton_class",
      "begin_block", "end_block", "if_modifier", "unless_modifier", "while_modifier",
      "until_modifier", "rescue_modifier"],
    Rule.each (.compoundIf (.hasField "block")) ["call"],
    -- Clauses, whose bodies belong to the statement that owns them
    Rule.each .skip ["then", "else", "elsif", "do", "rescue", "ensure", "comment",
      "heredoc_body", "empty_statement", "uninterpreted"]]
  fields := [
    ⟨"if", "condition", .byKind⟩,
    ⟨"unless", "condition", .byKind⟩,
    ⟨"while", "condition", .byKind⟩,
    ⟨"until", "condition", .byKind⟩,
    ⟨"elsif", "condition", .byKind⟩,
    ⟨"case", "value", .byKind⟩,
    ⟨"case_match", "value", .byKind⟩,
    ⟨"if_modifier", "body", .byKind⟩,
    ⟨"unless_modifier", "body", .byKind⟩,
    ⟨"while_modifier", "body", .byKind⟩,
    ⟨"until_modifier", "body", .byKind⟩,
    ⟨"rescue_modifier", "body", .byKind⟩]
  containers := ["program", "body_statement", "begin", "then", "else", "ensure", "do",
    "begin_block", "end_block", "block_body", "parenthesized_statements", "class", "module",
    "method", "singleton_method", "singleton_class", "do_block", "block"]
  collapse := none

end StatementOutline.RuleTable
