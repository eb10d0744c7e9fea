import CodeReview.Analyzer.Basic
/-!
# Bugs

Reports statements that follow a return in a block, one for each return that is not the last statement,
and conditions of branches and loops that are assignments.
-/
namespace CodeReview.Analyzer.Bugs

open Syntax (Node)

def group : String := "bugs"

def unreachableRule : String := "no-unreachable"

def assignmentRule : String := "no-assignment-in-condition"

/-- The node types in which a return may stand alone. -/
def statementWrappers : List String := ["expression_statement"]

/-- Whether a node is a return statement, bare or alone in a wrapper. -/
def isReturn (n : Node) : Bool :=
  n.kind == .returnStmt ||
    (statementWrappers.contains n.label.grammarType &&
      match n.children with
      | [c] => c.kind == .returnStmt
      | _ => false)

/-- The statements that stand right after a return. -/
def afterReturns : List Node → List Node
  | a :: b :: rest => (if isReturn a then [b] else []) ++ afterReturns (b :: rest)
  | _ => []

def testsCondition (n : Node) : Bool := n.kind == .conditional || n.kind == .whileLoop

def assignedCondition? (n : Node) : Option Syntax.Label := n.test?.filter (·.kind == .assignment)

def unreachable (n : Node) : Draft :=
  .at n.label unreachableRule .medium "Unreachable code after return"
    "Code after return statement will never be executed." []

def assignment (l : Syntax.Label) : Draft :=
  .at l assignmentRule .high "Assignment in condition"
    "Assignment in condition is likely a mistake. Did you mean to use == or ===?" []

def drafts (rules : RuleSet) (n : Node) : List Draft :=
  if rules.isEnabled unreachableRule && n.kind == .block then
    (afterReturns n.children).map unreachable
  else if rules.isEnabled assignmentRule && testsCondition n then
    (assignedCondition? n).toList.map assignment
  else []

end Bugs

def bugs : Analyzer := .ofDrafts Bugs.group none Bugs.drafts

end CodeReview.Analyzer
