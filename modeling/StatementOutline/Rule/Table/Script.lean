import StatementOutline.Rule.Basic

/-!
# TypeScript, JavaScript and PHP

TypeScript, JavaScript and their dialects with markup share one table. The header of a counting
loop holds no statements. In PHP, tags and the text between them are looked through, so the
statements on both sides of a tag are siblings.
-/

namespace StatementOutline.RuleTable

/-- Rules for TypeScript and JavaScript. -/
def script : RuleTable where
  kinds := List.flatten [
    -- Simple statements
    Rule.each .atomic ["expression_statement", "variable_declaration", "lexical_declaration",
      "import_statement", "debugger_statement", "return_statement", "break_statement",
      "continue_statement", "throw_statement", "empty_statement", "type_alias_declaration",
      "function_signature", "abstract_method_signature"],
    -- Class members
    Rule.each .atomic ["field_definition", "public_field_definition"],
    -- Statements with bodies
    Rule.each .compound ["statement_block", "export_statement", "if_statement",
      "switch_statement", "for_statement", "for_in_statement", "while_statement", "do_statement",
      "try_statement", "with_statement", "labeled_statement"],
    -- Declarations with bodies
    Rule.each .compound ["function_declaration", "generator_function_declaration",
      "class_declaration", "abstract_class_declaration", "method_definition",
      "class_static_block", "interface_declaration", "enum_declaration", "internal_module",
      "module", "ambient_declaration"],
    -- Looked through
    Rule.each .skip ["comment", "class_body", "switch_body", "switch_case", "switch_default",
      "else_clause", "catch_clause", "finally_clause"]]
  fields := [
    ⟨"for_statement", "initializer", .sealed⟩,
    ⟨"for_statement", "condition", .sealed⟩,
    ⟨"for_statement", "increment", .sealed⟩]
  containers := []
  collapse := some {
    kinds := ["if_statement", "for_statement", "for_in_statement", "while_statement",
      "do_statement", "with_statement"]
    blocks := ["statement_block"]
    keepCompound := false }

/-- Rules for PHP. -/
def php : RuleTable where
  kinds := List.flatten [
    -- Simple statements
    Rule.each .atomic ["echo_statement", "expression_statement", "return_statement",
      "break_statement", "continue_statement", "global_declaration",
      "function_static_declaration", "unset_statement", "goto_statement",
      "named_label_statement", "empty_statement", "namespace_use_declaration",
      "const_declaration", "property_declaration", "use_declaration", "enum_case"],
    -- Statements with bodies
    Rule.each .compound ["compound_statement", "if_statement", "switch_statement",
      "while_statement", "do_statement", "for_statement", "foreach_statement", "try_statement",
      "declare_statement"],
    -- Declarations with bodies
    Rule.each .compound ["namespace_definition", "function_definition", "method_declaration",
      "class_declaration", "interface_declaration", "trait_declaration", "enum_declaration"],
    -- Looked through
    Rule.each .skip ["comment", "php_tag", "text_interpolation", "text", "declaration_list",
      "enum_declaration_list", "switch_block", "case_statement", "default_statement",
      "else_clause", "else_if_clause", "catch_clause", "finally_clause", "colon_block"]]
  fields := []
  containers := []
  collapse := some {
    kinds := ["if_statement", "while_statement", "for_statement", "foreach_statement"]
    blocks := ["compound_statement", "colon_block"]
    keepCompound := false }

end StatementOutline.RuleTable
