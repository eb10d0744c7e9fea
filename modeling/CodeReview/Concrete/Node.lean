import CodeReview.Text.Lines
import CodeReview.Text.Utf8
/-!
# Concrete syntax trees

What a grammar makes of a text: a tree whose nodes are named or bare tokens, know the field of their
parent that they fill, and stand at byte offsets of the text's UTF-8 form. A node may be an error or may
have been put in where something was missing; `hasError` tells whether one of these stands at the node or
below it, and `firstFault` finds the first of them without entering subtrees that have none.
-/
namespace CodeReview.Concrete

open Text (Bytes)

/-- A place in a text: the number of line feeds before it and of bytes since the last of them. A host may also
report places that are in no text. -/
structure Point where
  row : Int
  column : Int
  deriving DecidableEq, Repr, Inhabited

/-- The place of a byte offset; one behind the end stands on the last line. -/
def Point.ofOffset (bytes : Bytes) (offset : Int) : Point :=
  let before := bytes.take (Text.before offset bytes)
  let open_ := (before.reverse.takeWhile (· != 10)).length
  ⟨before.count 10, offset - (before.length - open_ : Nat)⟩

structure Label where
  type : String
  start : Int
  stop : Int
  named : Bool
  isError : Bool
  isMissing : Bool
  field : Option String
  startPoint : Point
  endPoint : Point
  hasError : Bool
  deriving DecidableEq, Repr, Inhabited

inductive Node where
  | mk (label : Label) (children : List Node)
  deriving Inhabited

namespace Node

def label : Node → Label
  | mk l _ => l

def children : Node → List Node
  | mk _ cs => cs

def field? (n : Node) (name : String) : Option Node :=
  n.children.find? fun c => c.label.field == some name

/-- The first child that fills one of several fields, the earlier field going first. -/
def firstField? (n : Node) (names : List String) : Option Node := names.findSome? n.field?

mutual

def size : Node → Nat
  | mk _ cs => sizes cs + 1

def sizes : List Node → Nat
  | [] => 0
  | c :: cs => size c + sizes cs

end

theorem sizes_append (xs ys : List Node) : sizes (xs ++ ys) = sizes xs + sizes ys := by
  induction xs with
  | nil => simp [sizes]
  | cons x xs ih => simp [sizes, ih, Nat.add_assoc]

mutual

/-- Whether a node, or one below it, is an error or is missing. -/
def isFaulty : Node → Bool
  | mk l cs => l.isError || l.isMissing || anyFaulty cs

def anyFaulty : List Node → Bool
  | [] => false
  | c :: cs => isFaulty c || anyFaulty cs

end

end Node

/-! ## The first error -/

inductive Fault where
  | missing (type : String)
  | unexpected
  | unlocated
  deriving DecidableEq, Repr

structure Located where
  fault : Fault
  point : Point
  deriving DecidableEq, Repr

def Label.fault? (l : Label) : Option Located :=
  if l.isMissing then some ⟨.missing l.type, l.startPoint⟩
  else if l.isError then some ⟨.unexpected, l.startPoint⟩
  else none

/-- The children that a search for the first error goes on to. -/
def Label.entered (l : Label) (cs : List Node) : List Node := if l.hasError then cs else []

theorem sizes_entered_le (l : Label) (cs : List Node) : Node.sizes (l.entered cs) ≤ Node.sizes cs := by
  unfold Label.entered
  split
  · exact Nat.le_refl _
  · simp [Node.sizes]

/-- The first error in a list of trees, in document order, subtrees without error being passed over. -/
def firstFaultIn (todo : List Node) : Option Located :=
  match todo with
  | [] => none
  | .mk l cs :: rest =>
    match l.fault? with
    | some f => some f
    | none => firstFaultIn (l.entered cs ++ rest)
termination_by Node.sizes todo
decreasing_by
  have := sizes_entered_le l cs
  simp only [Node.sizes_append, Node.sizes, Node.size]
  omega

/-- The first error of a tree; where none can be found, the start of the tree. -/
def firstFault (root : Node) : Located :=
  (firstFaultIn [root]).getD ⟨.unlocated, root.label.startPoint⟩

end CodeReview.Concrete
