import CodeReview.Syntax.Kind
import CodeReview.Value.Basic
/-!
# The canonical syntax tree

A node has a label and children in source order. A node that tests something knows its condition: as a
rule the condition stands somewhere below the node and is known by the path of child positions that
leads to it; a tree built by hand may also name a condition that is not among the nodes below
(`Condition.apart`). Positions count lines and columns from one; a tree built by hand may hold any integers.
-/
namespace CodeReview.Syntax

/-- What a node is and where it stands. -/
structure Label where
  kind : Kind
  /-- What the grammar calls the node. -/
  grammarType : String
  line : Int
  column : Int
  endLine : Int
  endColumn : Int
  /-- The text of an identifier, the callee of a call, or the property of a member access. -/
  name : Option String := none
  /-- The operator of a binary or logical node. -/
  operator : Option String := none
  /-- The number of elements of an array literal. -/
  elementCount : Option Int := none
  deriving DecidableEq, Repr, Inhabited

namespace Label

def isLoop (l : Label) : Bool := l.kind.isLoop

/-- Whether the node is a logical operation that may skip its second operand. -/
def isShortCircuit (l : Label) : Bool :=
  l.kind == .logical && (l.operator == some "&&" || l.operator == some "||")

/-- Whether the node adds a path to the flow of control. -/
def isDecision (l : Label) : Bool := l.kind.isBranch || l.isShortCircuit

end Label

/-- The condition of a node: where it stands below the node, or its label if it stands nowhere there. -/
inductive Condition where
  | inside (path : List Nat)
  | apart (label : Label)
  deriving DecidableEq, Repr

inductive Node where
  | mk (label : Label) (condition : Option Condition) (children : List Node)
  deriving Inhabited

namespace Node

def label : Node → Label
  | mk l _ _ => l

def condition : Node → Option Condition
  | mk _ c _ => c

def children : Node → List Node
  | mk _ _ cs => cs

def kind (n : Node) : Kind := n.label.kind

mutual

def size : Node → Nat
  | mk _ _ cs => sizes cs + 1

def sizes : List Node → Nat
  | [] => 0
  | c :: cs => size c + sizes cs

end

/-- The node at a path of child positions. -/
def at? (n : Node) : List Nat → Option Node
  | [] => some n
  | i :: path => (n.children[i]?).bind fun c => at? c path

/-- The path of child positions to a node; of the given ones, those below zero are counted from the end. -/
def path? (n : Node) : List Int → Option (List Nat)
  | [] => some []
  | i :: rest =>
    let i := if i < 0 then n.children.length + i else i
    if i < 0 then none
    else (n.children[i.toNat]?).bind fun c => (path? c rest).map (i.toNat :: ·)

def test? (n : Node) : Option Label :=
  match n.condition with
  | none => none
  | some (.apart l) => some l
  | some (.inside path) => (n.at? path).map label

def childrenOf (n : Node) : Option Kind → List Node
  | none => n.children
  | some k => n.children.filter (·.kind == k)

/-- The node that stands right after the node at `child` among the children of the node at `parent`;
none if the one is not a child of the other, or the last. -/
def nextSibling? (root : Node) (parent child : List Nat) : Option Node :=
  if child.isEmpty then none
  else if child.dropLast == parent then
    (root.at? parent).bind fun p => (child.getLast?).bind fun i => p.children[i + 1]?
  else none

/-- How many nodes come before the node at a path when the tree is listed parents first. -/
def indexOf (n : Node) : List Nat → Nat
  | [] => 0
  | i :: path =>
    match n.children[i]? with
    | some c => 1 + sizes (n.children.take i) + indexOf c path
    | none => 0

mutual

def toValue : Node → Value
  | mk l _ cs =>
    let own : List (String × Value) :=
      [("kind", .text l.kind.name), ("type", .text l.grammarType), ("line", .int l.line),
        ("column", .int l.column)] ++
      (l.name.map fun s => ("name", Value.text s)).toList ++
      (l.operator.map fun s => ("operator", Value.text s)).toList ++
      (l.elementCount.map fun n => ("element_count", Value.int n)).toList
    match cs with
    | [] => .map own
    | c :: rest => .map (own ++ [("children", .list (toValue c :: toValues rest))])

def toValues : List Node → List Value
  | [] => []
  | c :: cs => toValue c :: toValues cs

end

end Node
end CodeReview.Syntax
