import SyntaxGraph.Grammar.Schema

/-!
# The grammar of Python

The fields of every kind of node that the bundled grammar names: the kind, its fields with their
shapes, and the shape of its children without a field.
-/

namespace SyntaxGraph

/-- One line of a table of fields. -/
abbrev SchemaRow := String × List (String × FieldShape) × Option FieldShape

/-- The schema of a table. -/
def GrammarSchema.ofTable (rows : List SchemaRow) : GrammarSchema where
  nodes := SortedMap.ofList (rows.map fun (kind, fields, children) =>
    (kind, ⟨SortedMap.ofList fields, children⟩))

/-- The fields of the kinds of node in Python sources. -/
def pythonTable : List SchemaRow :=
  [
    ("_compound_statement", [], none),
    ("_simple_statement", [], none),
    ("expression", [], none),
    ("parameter", [], none),
    ("pattern", [], none),
    ("primary_expression", [], none),
    ("aliased_import", [("alias", .child), ("name", .child)], none),
    ("argument_list", [], some .childList),
    ("as_pattern", [("alias", .child)], some .childList),
    ("assert_statement", [], some .childList),
    ("assignment", [("left", .child), ("right", .child), ("type", .child)], none),
    ("attribute", [("attribute", .child), ("object", .child)], none),
    ("augmented_assignment", [("left", .child), ("operator", .scalar), ("right", .child)], none),
    ("await", [], some .child),
    ("binary_operator", [("left", .child), ("operator", .scalar), ("right", .child)], none),
    ("block", [("alternative", .childList)], some .childList),
    ("boolean_operator", [("left", .child), ("operator", .scalar), ("right", .child)], none),
    ("break_statement", [], none),
    ("call", [("arguments", .child), ("function", .child)], none),
    ("case_clause", [("consequence", .child), ("guard", .child)], some .childList),
    ("case_pattern", [], some .child),
    ("chevron", [], some .child),
    ("class_definition",
      [("body", .child), ("name", .child), ("superclasses", .child),
      ("type_parameters", .child)], none),
    ("class_pattern", [], some .childList),
    ("comparison_operator", [("operators", .scalar)], some .childList),
    ("complex_pattern", [], some .childList),
    ("concatenated_string", [], some .childList),
    ("conditional_expression", [], some .childList),
    ("constrained_type", [], some .childList),
    ("continue_statement", [], none),
    ("decorated_definition", [("definition", .child)], some .childList),
    ("decorator", [], some .child),
    ("default_parameter", [("name", .child), ("value", .child)], none),
    ("delete_statement", [], some .child),
    ("dict_pattern", [("key", .childList), ("value", .childList)], some .childList),
    ("dictionary", [], some .childList),
    ("dictionary_comprehension", [("body", .child)], some .childList),
    ("dictionary_splat", [], some .child),
    ("dictionary_splat_pattern", [], some .child),
    ("dotted_name", [], some .childList),
    ("elif_clause", [("condition", .child), ("consequence", .child)], none),
    ("else_clause", [("body", .child)], none),
    ("except_clause", [], some .childList),
    ("except_group_clause", [], some .childList),
    ("exec_statement", [("code", .child)], some .childList),
    ("expression_list", [], some .childList),
    ("expression_statement", [], some .childList),
    ("finally_clause", [], some .child),
    ("for_in_clause", [("left", .child), ("right", .childList)], none),
    ("for_statement",
      [("alternative", .child), ("body", .child), ("left", .child),
      ("right", .child)], none),
    ("format_expression",
      [("expression", .child), ("format_specifier", .child),
      ("type_conversion", .child)], none),
    ("format_specifier", [], some .childList),
    ("function_definition",
      [("body", .child), ("name", .child), ("parameters", .child),
      ("return_type", .child), ("type_parameters", .child)], none),
    ("future_import_statement", [("name", .childList)], none),
    ("generator_expression", [("body", .child)], some .childList),
    ("generic_type", [], some .childList),
    ("global_statement", [], some .childList),
    ("if_clause", [], some .child),
    ("if_statement",
      [("alternative", .childList), ("condition", .child),
      ("consequence", .child)], none),
    ("import_from_statement", [("module_name", .child), ("name", .childList)], some .child),
    ("import_prefix", [], none),
    ("import_statement", [("name", .childList)], none),
    ("interpolation",
      [("expression", .child), ("format_specifier", .child),
      ("type_conversion", .child)], none),
    ("keyword_argument", [("name", .child), ("value", .child)], none),
    ("keyword_pattern", [], some .childList),
    ("keyword_separator", [], none),
    ("lambda", [("body", .child), ("parameters", .child)], none),
    ("lambda_parameters", [], some .childList),
    ("list", [], some .childList),
    ("list_comprehension", [("body", .child)], some .childList),
    ("list_pattern", [], some .childList),
    ("list_splat", [], some .child),
    ("list_splat_pattern", [], some .child),
    ("match_statement", [("body", .child), ("subject", .childList)], none),
    ("member_type", [], some .childList),
    ("module", [], some .childList),
    ("named_expression", [("name", .child), ("value", .child)], none),
    ("nonlocal_statement", [], some .childList),
    ("not_operator", [("argument", .child)], none),
    ("pair", [("key", .child), ("value", .child)], none),
    ("parameters", [], some .childList),
    ("parenthesized_expression", [], some .child),
    ("parenthesized_list_splat", [], some .child),
    ("pass_statement", [], none),
    ("pattern_list", [], some .childList),
    ("positional_separator", [], none),
    ("print_statement", [("argument", .childList)], some .child),
    ("raise_statement", [("cause", .child)], some .child),
    ("relative_import", [], some .childList),
    ("return_statement", [], some .child),
    ("set", [], some .childList),
    ("set_comprehension", [("body", .child)], some .childList),
    ("slice", [], some .childList),
    ("splat_pattern", [], some .child),
    ("splat_type", [], some .child),
    ("string", [], some .childList),
    ("string_content", [], some .childList),
    ("subscript", [("subscript", .childList), ("value", .child)], none),
    ("try_statement", [("body", .child)], some .childList),
    ("tuple", [], some .childList),
    ("tuple_pattern", [], some .childList),
    ("type", [], some .child),
    ("type_alias_statement", [], some .childList),
    ("type_parameter", [], some .childList),
    ("typed_default_parameter", [("name", .child), ("type", .child), ("value", .child)], none),
    ("typed_parameter", [("type", .child)], some .child),
    ("unary_operator", [("argument", .child), ("operator", .scalar)], none),
    ("union_pattern", [], some .childList),
    ("union_type", [], some .childList),
    ("while_statement", [("alternative", .child), ("body", .child), ("condition", .child)], none),
    ("wildcard_import", [], none),
    ("with_clause", [], some .childList),
    ("with_item", [("value", .child)], none),
    ("with_statement", [("body", .child)], some .child),
    ("yield", [], some .child),
    ("comment", [], none),
    ("ellipsis", [], none),
    ("escape_interpolation", [], none),
    ("escape_sequence", [], none),
    ("false", [], none),
    ("float", [], none),
    ("identifier", [], none),
    ("integer", [], none),
    ("line_continuation", [], none),
    ("none", [], none),
    ("string_end", [], none),
    ("string_start", [], none),
    ("true", [], none),
    ("type_conversion", [], none)
  ]

/-- The schema of Python sources. -/
def pythonSchema : GrammarSchema := .ofTable pythonTable

end SyntaxGraph
