import CodeReview.Language
import CodeReview.Syntax.Kind
/-!
# Grammar tables

For each language, the grammars that may parse it, the kinds of its node types, and the fields in which
its nodes keep what analyzers look at. A node type without a kind is of kind `other`.
-/
namespace CodeReview.Grammar

open Syntax (Kind)

/-- How the trees of a language's grammars become canonical trees. -/
structure Table where
  language : Language
  /-- The grammar that is tried first. -/
  grammar : String
  /-- The grammars that are tried next, in order, while there are syntax errors. -/
  fallbacks : List String := []
  kinds : List (String × Kind)
  calleeFields : List String := ["function"]
  propertyFields : List String := ["property"]
  identifierTypes : List String := ["identifier"]
  deriving DecidableEq, Repr

/-- All grammars of a language, in the order in which they are tried. -/
def Table.grammars (t : Table) : List String := t.grammar :: t.fallbacks

def Table.kindOf (t : Table) (type : String) : Kind := (t.kinds.lookup type).getD .other

/-- The node types that are left out of canonical trees. -/
def commentTypes : List String := ["comment", "line_comment", "block_comment"]

/-- The node types that only wrap a condition. -/
def conditionWrappers : List String := ["parenthesized_expression", "condition_clause"]

/-- The operator a text stands for: keywords stand for their symbols. -/
def operatorOf (text : String) : String :=
  if text == "and" then "&&" else if text == "or" then "||" else text

def logicalOperators : List String := ["&&", "||", "??"]

/-! ## Node types -/

def javascriptKinds : List (String × Kind) := [
  ("program", .module), ("statement_block", .block), ("if_statement", .conditional),
  ("ternary_expression", .ternary), ("switch_case", .switchCase), ("switch_default", .switchCase),
  ("for_statement", .countedLoop), ("for_in_statement", .eachLoop), ("while_statement", .whileLoop),
  ("do_statement", .doLoop), ("catch_clause", .catchClause), ("binary_expression", .binary),
  ("function_declaration", .function), ("function_expression", .function), ("function", .function),
  ("generator_function_declaration", .function), ("generator_function", .function),
  ("arrow_function", .function), ("method_definition", .function),
  ("class_declaration", .classDecl), ("return_statement", .returnStmt), ("call_expression", .call),
  ("member_expression", .member), ("array", .array), ("assignment_expression", .assignment),
  ("augmented_assignment_expression", .assignment), ("identifier", .identifier)]

def typescriptKinds : List (String × Kind) :=
  javascriptKinds ++ [("abstract_class_declaration", .classDecl)]

def pythonKinds : List (String × Kind) := [
  ("module", .module), ("block", .block), ("if_statement", .conditional),
  ("elif_clause", .conditional), ("conditional_expression", .ternary), ("case_clause", .switchCase),
  ("for_statement", .eachLoop), ("while_statement", .whileLoop), ("except_clause", .catchClause),
  ("except_group_clause", .catchClause), ("boolean_operator", .binary),
  ("binary_operator", .binary), ("function_definition", .function), ("lambda", .function),
  ("class_definition", .classDecl), ("return_statement", .returnStmt), ("call", .call),
  ("attribute", .member), ("list", .array), ("assignment", .assignment),
  ("augmented_assignment", .assignment), ("identifier", .identifier)]

def javaKinds : List (String × Kind) := [
  ("program", .module), ("block", .block), ("if_statement", .conditional),
  ("ternary_expression", .ternary), ("switch_label", .switchCase), ("for_statement", .countedLoop),
  ("enhanced_for_statement", .eachLoop), ("while_statement", .whileLoop), ("do_statement", .doLoop),
  ("catch_clause", .catchClause), ("binary_expression", .binary), ("method_declaration", .function),
  ("constructor_declaration", .function), ("lambda_expression", .function),
  ("class_declaration", .classDecl), ("record_declaration", .classDecl),
  ("return_statement", .returnStmt), ("method_invocation", .call), ("field_access", .member),
  ("array_initializer", .array), ("assignment_expression", .assignment),
  ("identifier", .identifier)]

def goKinds : List (String × Kind) := [
  ("source_file", .module), ("block", .block), ("statement_list", .block),
  ("if_statement", .conditional), ("expression_case", .switchCase), ("type_case", .switchCase),
  ("default_case", .switchCase), ("communication_case", .switchCase),
  ("for_statement", .countedLoop), ("binary_expression", .binary),
  ("function_declaration", .function), ("method_declaration", .function),
  ("func_literal", .function), ("struct_type", .classDecl), ("return_statement", .returnStmt),
  ("call_expression", .call), ("selector_expression", .member),
  ("assignment_statement", .assignment), ("identifier", .identifier)]

def rustKinds : List (String × Kind) := [
  ("source_file", .module), ("block", .block), ("if_expression", .conditional),
  ("match_arm", .switchCase), ("for_expression", .eachLoop), ("while_expression", .whileLoop),
  ("loop_expression", .whileLoop), ("binary_expression", .binary), ("function_item", .function),
  ("closure_expression", .function), ("struct_item", .classDecl),
  ("return_expression", .returnStmt), ("call_expression", .call), ("field_expression", .member),
  ("array_expression", .array), ("assignment_expression", .assignment),
  ("compound_assignment_expr", .assignment), ("identifier", .identifier)]

def cppKinds : List (String × Kind) := [
  ("translation_unit", .module), ("compound_statement", .block), ("if_statement", .conditional),
  ("conditional_expression", .ternary), ("case_statement", .switchCase),
  ("for_statement", .countedLoop), ("for_range_loop", .eachLoop), ("while_statement", .whileLoop),
  ("do_statement", .doLoop), ("catch_clause", .catchClause), ("binary_expression", .binary),
  ("function_definition", .function), ("lambda_expression", .function),
  ("class_specifier", .classDecl), ("struct_specifier", .classDecl),
  ("return_statement", .returnStmt), ("call_expression", .call), ("field_expression", .member),
  ("initializer_list", .array), ("assignment_expression", .assignment), ("identifier", .identifier)]

/-! ## The tables -/

def tableOf : Language → Table
  | .javascript => { language := .javascript, grammar := "javascript", kinds := javascriptKinds }
  | .typescript =>
    { language := .typescript, grammar := "typescript", fallbacks := ["tsx"], kinds := typescriptKinds }
  | .python =>
    { language := .python, grammar := "python", kinds := pythonKinds, propertyFields := ["attribute"] }
  | .java =>
    { language := .java, grammar := "java", kinds := javaKinds, calleeFields := ["name"],
      propertyFields := ["field"] }
  | .go => { language := .go, grammar := "go", kinds := goKinds, propertyFields := ["field"] }
  | .rust => { language := .rust, grammar := "rust", kinds := rustKinds, propertyFields := ["field"] }
  | .cpp => { language := .cpp, grammar := "cpp", kinds := cppKinds, propertyFields := ["field"] }

end CodeReview.Grammar
