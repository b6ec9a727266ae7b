import StatementOutline.Rule.Basic

/-!
# Java and C#

Types and their members are compound, and the lists that hold members are looked through.
-/

namespace StatementOutline.RuleTable

/-- Rules for Java. -/
def java : RuleTable where
  kinds := List.flatten [
    -- Declarations
    Rule.each .atomic ["package_declaration", "import_declaration"],
    Rule.each .compound ["module_declaration", "class_declaration", "interface_declaration",
      "enum_declaration", "record_declaration", "annotation_type_declaration",
      "method_declaration", "constructor_declaration", "compact_constructor_declaration",
      "static_initializer"],
    Rule.each .atomic ["field_declaration", "constant_declaration",
      "annotation_type_element_declaration"],
    -- Simple statements
    Rule.each .atomic ["local_variable_declaration", "expression_statement",
      "explicit_constructor_invocation", "assert_statement", "break_statement",
      "continue_statement", "return_statement", "throw_statement", "yield_statement"],
    -- Statements with bodies
    Rule.each .compound ["block", "if_statement", "for_statement", "enhanced_for_statement",
      "while_statement", "do_statement", "try_statement", "try_with_resources_statement",
      "switch_expression", "synchronized_statement", "labeled_statement"],
    -- Looked through
    Rule.each .skip ["line_comment", "block_comment", "class_body", "interface_body",
      "enum_body", "enum_body_declarations", "annotation_type_body", "constructor_body",
      "switch_block", "switch_block_statement_group", "switch_rule", "catch_clause",
      "finally_clause"],
    Rule.each .sealed ["resource_specification"]]
  fields := [
    ⟨"for_statement", "init", .sealed⟩]
  containers := []
  collapse := some {
    kinds := ["if_statement", "for_statement", "enhanced_for_statement", "while_statement",
      "do_statement"]
    blocks := ["block"]
    keepCompound := false }

/-- Rules for C#. -/
def cSharp : RuleTable where
  kinds := List.flatten [
    -- Compilation unit
    Rule.each .atomic ["extern_alias_directive", "using_directive", "global_attribute",
      "global_attribute_list"],
    Rule.each .compound ["namespace_declaration", "file_scoped_namespace_declaration",
      "preproc_if"],
    -- Types
    Rule.each .compound ["class_declaration", "struct_declaration", "record_declaration",
      "record_struct_declaration", "interface_declaration", "enum_declaration"],
    Rule.each .atomic ["delegate_declaration"],
    -- Members
    Rule.each .atomic ["field_declaration", "event_field_declaration"],
    Rule.each .compound ["property_declaration", "event_declaration", "indexer_declaration",
      "accessor_declaration", "method_declaration", "constructor_declaration",
      "destructor_declaration", "operator_declaration", "conversion_operator_declaration"],
    -- Simple statements
    Rule.each .atomic ["expression_statement", "local_declaration_statement", "break_statement",
      "continue_statement", "return_statement", "yield_statement", "throw_statement",
      "goto_statement", "empty_statement"],
    -- Statements with bodies
    Rule.each .compound ["block", "checked_statement", "unsafe_statement", "fixed_statement",
      "lock_statement", "using_statement", "if_statement", "switch_statement", "for_statement",
      "foreach_statement", "while_statement", "do_statement", "try_statement",
      "labeled_statement", "local_function_statement"],
    -- Looked through
    Rule.each .skip ["comment", "global_statement", "declaration_list",
      "enum_member_declaration_list", "accessor_list", "switch_body", "switch_section",
      "catch_clause", "finally_clause", "preproc_elif", "preproc_else"]]
  fields := []
  containers := []
  collapse := some {
    kinds := ["if_statement", "for_statement", "foreach_statement", "while_statement",
      "do_statement", "lock_statement", "using_statement", "fixed_statement"]
    blocks := ["block"]
    keepCompound := false }

end StatementOutline.RuleTable
