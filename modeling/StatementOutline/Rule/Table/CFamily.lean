import StatementOutline.Rule.Basic

/-!
# C and C++

A declaration is compound when it holds the body of a record. A type specifier in a `type` field is
part of the declaration it stands in, so it is looked through there. A label is not compound and
still carries the statement behind it.
-/

namespace StatementOutline.RuleTable

/-- Bodies that make a declaration compound. -/
def recordBodies : List String := ["field_declaration_list", "enumerator_list"]

/-- Rules for C. -/
def c : RuleTable where
  kinds := List.flatten [
    -- Declarations
    Rule.each (.compoundIf (.contains recordBodies)) ["declaration", "type_definition"],
    Rule.each .compound ["function_definition", "struct_specifier", "union_specifier",
      "enum_specifier", "field_declaration_list"],
    Rule.each .atomic ["field_declaration"],
    -- Simple statements
    Rule.each .atomic ["expression_statement", "return_statement", "break_statement",
      "continue_statement", "goto_statement"],
    Rule.each .wrapper ["labeled_statement"],
    -- Statements with bodies
    Rule.each .compound ["compound_statement", "if_statement", "switch_statement",
      "case_statement", "while_statement", "do_statement", "for_statement"],
    -- Preprocessor
    Rule.each .atomic ["preproc_include", "preproc_def", "preproc_function_def", "preproc_call"],
    Rule.each .compound ["preproc_if", "preproc_ifdef"],
    -- Looked through
    Rule.each .skip ["comment", "else_clause", "preproc_elif", "preproc_elifdef", "preproc_else"]]
  fields := [
    ⟨"*", "type", .skip⟩]
  containers := []
  collapse := some {
    kinds := ["if_statement", "for_statement", "while_statement", "do_statement"]
    blocks := ["compound_statement"]
    keepCompound := false }

/-- Rules for C++: those for C, with classes, namespaces, templates and concepts. -/
def cpp : RuleTable where
  kinds := List.flatten [
    -- Declarations
    Rule.each (.compoundIf (.contains recordBodies)) ["declaration", "type_definition"],
    Rule.each .compound ["function_definition", "struct_specifier", "union_specifier",
      "enum_specifier", "class_specifier", "field_declaration_list"],
    Rule.each .atomic ["field_declaration"],
    Rule.each .compound ["namespace_definition", "template_declaration"],
    Rule.each (.compoundIf .multiline) ["concept_definition"],
    Rule.each .atomic ["alias_declaration", "using_declaration", "static_assert_declaration",
      "namespace_alias_definition"],
    Rule.each .skip ["access_specifier"],
    -- Requirements in a concept
    Rule.each .atomic ["simple_requirement", "compound_requirement", "type_requirement"],
    -- Simple statements
    Rule.each .atomic ["expression_statement", "return_statement", "break_statement",
      "continue_statement", "goto_statement", "throw_statement", "co_return_statement",
      "co_yield_statement"],
    Rule.each .wrapper ["labeled_statement"],
    -- Statements with bodies
    Rule.each .compound ["compound_statement", "if_statement", "switch_statement",
      "case_statement", "while_statement", "do_statement", "for_statement", "for_range_loop",
      "try_statement"],
    -- Preprocessor
    Rule.each .atomic ["preproc_include", "preproc_def", "preproc_function_def", "preproc_call"],
    Rule.each .compound ["preproc_if", "preproc_ifdef"],
    -- Looked through
    Rule.each .skip ["comment", "declaration_list", "requires_expression", "requirement_seq",
      "else_clause", "catch_clause", "preproc_elif", "preproc_elifdef", "preproc_else"]]
  fields := [
    ⟨"*", "type", .skip⟩]
  containers := []
  collapse := some {
    kinds := ["if_statement", "for_statement", "for_range_loop", "while_statement",
      "do_statement"]
    blocks := ["compound_statement"]
    keepCompound := false }

end StatementOutline.RuleTable
