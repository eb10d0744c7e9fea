import CodeReview.Concrete.Node
import CodeReview.Grammar.Source
import CodeReview.Grammar.Table
import CodeReview.Syntax.Deadline
import CodeReview.Syntax.Node
import CodeReview.Text.Blank
/-!
# Canonical trees of concrete trees

`build` makes one canonical node from a concrete node and the canonical nodes of its children; only
children that are named and no comments count. `normal` is the plain recursion over the concrete tree.
`normalize` makes the same tree with a stack of nodes part way through, so that no depth of nesting can
exhaust the stack, and looks at the clock after every 512th node it has built.
-/
namespace CodeReview.Grammar

open Syntax (Condition Deadline Kind)

/-- Whether a concrete node has a place in the canonical tree of its parent. -/
def isKept (n : Concrete.Node) : Bool := n.label.named && !commentTypes.contains n.label.type

def kept (n : Concrete.Node) : List Concrete.Node := n.children.filter isKept

/-! ## One node -/

/-- The operator of a binary node: the one in its field or else the first bare token. -/
def operator? (s : Source) (n : Concrete.Node) : Option String :=
  ((n.field? "operator").or (n.children.find? fun c => !c.label.named)).map fun c =>
    operatorOf (Text.strip (s.slice c.label.start c.label.stop))

/-- The text of the concrete node a canonical node is named after. -/
def name? (t : Table) (s : Source) (n : Concrete.Node) : Kind → Option String
  | .identifier => some (s.slice n.label.start n.label.stop)
  | .call =>
    ((n.firstField? t.calleeFields).filter fun c => t.identifierTypes.contains c.label.type).map
      fun c => s.slice c.label.start c.label.stop
  | .member =>
    (n.firstField? t.propertyFields).map fun c => s.slice c.label.start c.label.stop
  | _ => none

theorem sizeOf_getLast_lt {cs : List Syntax.Node} {c : Syntax.Node} (h : cs.getLast? = some c) :
    sizeOf c < sizeOf cs :=
  List.sizeOf_lt_of_mem (List.mem_of_getLast? h)

/-- The path from a condition's node through its wrappers, each entered at its last child. -/
def unwrap : Syntax.Node → List Nat
  | .mk l _ cs =>
    if conditionWrappers.contains l.grammarType then
      match h : cs.getLast? with
      | some c =>
        have := sizeOf_getLast_lt h
        (cs.length - 1) :: unwrap c
      | none => []
    else []

def sameRange (a b : Concrete.Label) : Bool :=
  a.start == b.start && a.stop == b.stop && a.type == b.type

/-- Where the condition of a node stands below it: at the first kept child with the type and the range of
the node in the condition field, inside its wrappers. -/
def condition? (n : Concrete.Node) (kids : List Concrete.Node) (children : List Syntax.Node) :
    Option Condition := do
  let c ← n.field? "condition"
  let i ← kids.findIdx? fun k => sameRange k.label c.label
  let child ← children[i]?
  return .inside (i :: unwrap child)

def build (t : Table) (s : Source) (n : Concrete.Node) (kids : List Concrete.Node)
    (children : List Syntax.Node) : Syntax.Node :=
  let l := n.label
  let mapped := if l.isError then Kind.error else t.kindOf l.type
  let operator := if mapped == .binary then operator? s n else none
  let kind := if (operator.map logicalOperators.contains).getD false then Kind.logical else mapped
  .mk {
      kind
      grammarType := l.type
      line := l.startPoint.row + 1
      column := s.column l.startPoint.row l.startPoint.column
      endLine := l.endPoint.row + 1
      endColumn := s.column l.endPoint.row l.endPoint.column
      name := name? t s n mapped
      operator
      elementCount := if mapped == .array then some (children.length : Int) else none }
    (if mapped.hasCondition then condition? n kids children else none)
    children

/-! ## The recursion -/

mutual

/-- The canonical tree of a concrete tree. -/
def normal (t : Table) (s : Source) : Concrete.Node → Syntax.Node
  | .mk l cs => build t s (.mk l cs) (kept (.mk l cs)) (normals t s cs)

/-- The canonical trees of the nodes of a list that are kept. -/
def normals (t : Table) (s : Source) : List Concrete.Node → List Syntax.Node
  | [] => []
  | c :: cs => if isKept c then normal t s c :: normals t s cs else normals t s cs

end

/-! ## The stack of open nodes -/

/-- A concrete node part way through: its kept children that are still to come, and the canonical nodes
of the others, last first. -/
structure Frame where
  node : Concrete.Node
  todo : List Concrete.Node
  done : List Syntax.Node

def Frame.opened (n : Concrete.Node) : Frame := ⟨n, kept n, []⟩

def Frame.build (t : Table) (s : Source) (f : Frame) : Syntax.Node :=
  Grammar.build t s f.node (kept f.node) f.done.reverse

def remaining : List Frame → Nat
  | [] => 0
  | f :: fs => 1 + 2 * Concrete.Node.sizes f.todo + remaining fs

theorem sizes_filter_le (p : Concrete.Node → Bool) (cs : List Concrete.Node) :
    Concrete.Node.sizes (cs.filter p) ≤ Concrete.Node.sizes cs := by
  induction cs with
  | nil => simp
  | cons c cs ih =>
    rw [List.filter_cons]
    split
    · simp only [Concrete.Node.sizes]; omega
    · simp only [Concrete.Node.sizes]; omega

theorem sizes_kept_lt (n : Concrete.Node) : Concrete.Node.sizes (kept n) < n.size := by
  obtain ⟨l, cs⟩ := n
  have := sizes_filter_le isKept cs
  simp only [kept, Concrete.Node.children, Concrete.Node.size]
  omega

/-- Completes the frame on top and those below it; `built` nodes have been made. -/
def normalizeFrom (t : Table) (s : Source) (top : Frame) (below : List Frame) (built : Nat)
    (deadline : Option Deadline) : Except Failure Syntax.Node × Option Deadline :=
  match _h : top.todo with
  | c :: rest => normalizeFrom t s (.opened c) ({ top with todo := rest } :: below) built deadline
  | [] =>
    let node := top.build t s
    match Deadline.poll (built + 1) deadline with
    | (some failure, deadline) => (.error failure, deadline)
    | (none, deadline) =>
      match below with
      | [] => (.ok node, deadline)
      | f :: fs => normalizeFrom t s { f with done := node :: f.done } fs (built + 1) deadline
termination_by remaining (top :: below)
decreasing_by
  · have := sizes_kept_lt c
    simp only [remaining, Frame.opened, _h, Concrete.Node.sizes]
    omega
  · simp only [remaining, _h, Concrete.Node.sizes]
    omega

/-- The canonical tree of a concrete tree, within a time budget. -/
def normalize (t : Table) (s : Source) (root : Concrete.Node) (deadline : Option Deadline) :
    Except Failure Syntax.Node × Option Deadline :=
  normalizeFrom t s (.opened root) [] 0 deadline

end CodeReview.Grammar
