/-!
# Kinds of syntax

The closed vocabulary of the canonical syntax tree. Whatever a grammar calls its nodes, analyzers see
one of these kinds. Loops are branches, and besides the branches only the operators `&&` and `||` add a
path to the flow of control.
-/
namespace CodeReview.Syntax

inductive Kind where
  | module
  | block
  | conditional
  | ternary
  | switchCase
  | countedLoop
  | eachLoop
  | whileLoop
  | doLoop
  | catchClause
  | logical
  | binary
  | function
  | classDecl
  | returnStmt
  | call
  | member
  | array
  | assignment
  | identifier
  | error
  | other
  deriving DecidableEq, Repr, Inhabited

namespace Kind

def all : List Kind :=
  [.module, .block, .conditional, .ternary, .switchCase, .countedLoop, .eachLoop, .whileLoop, .doLoop,
    .catchClause, .logical, .binary, .function, .classDecl, .returnStmt, .call, .member, .array,
    .assignment, .identifier, .error, .other]

def name : Kind → String
  | .module => "module"
  | .block => "block"
  | .conditional => "if"
  | .ternary => "conditional"
  | .switchCase => "switch_case"
  | .countedLoop => "for"
  | .eachLoop => "for_in"
  | .whileLoop => "while"
  | .doLoop => "do_while"
  | .catchClause => "catch"
  | .logical => "logical"
  | .binary => "binary"
  | .function => "function"
  | .classDecl => "class"
  | .returnStmt => "return"
  | .call => "call"
  | .member => "member"
  | .array => "array"
  | .assignment => "assignment"
  | .identifier => "identifier"
  | .error => "error"
  | .other => "other"

def ofName? (s : String) : Option Kind := all.find? (·.name == s)

def isLoop : Kind → Bool
  | .countedLoop | .eachLoop | .whileLoop | .doLoop => true
  | _ => false

/-- Whether nodes of a kind always add a path to the flow of control. -/
def isBranch : Kind → Bool
  | .conditional | .ternary | .switchCase | .catchClause => true
  | k => k.isLoop

/-- Whether nodes of a kind carry the condition they test. -/
def hasCondition : Kind → Bool
  | .conditional | .whileLoop | .doLoop => true
  | _ => false

end Kind
end CodeReview.Syntax
