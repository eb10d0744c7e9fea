import CodeReview.Syntax.Walk
/-!
# Metrics

Cyclomatic complexity starts at one and grows by one with every node that adds a path to the flow of
control. Functions and classes are counted beside it in the same walk. The nesting depth of loops is
measured along single branches: loops beside each other do not add up.
-/
namespace CodeReview.Syntax

structure Metrics where
  complexity : Int := 0
  lines : Int := 0
  functions : Int := 0
  classes : Int := 0
  deriving DecidableEq, Repr, Inhabited

def Metrics.toValue (m : Metrics) : Value := .map [
  ("complexity", .int m.complexity),
  ("lines", .int m.lines),
  ("functions", .int m.functions),
  ("classes", .int m.classes)]

def cyclomaticComplexity (root : Node) (deadline : Option Deadline) :
    Except Failure Nat × Option Deadline :=
  (Walk.fold (fun n v => .ok (if v.node.label.isDecision then n + 1 else n)) 1 root deadline).result

def Metrics.count (m : Metrics) (l : Label) : Metrics :=
  if l.isDecision then { m with complexity := m.complexity + 1 }
  else if l.kind == .function then { m with functions := m.functions + 1 }
  else if l.kind == .classDecl then { m with classes := m.classes + 1 }
  else m

def collectMetrics (root : Node) (lines : Int) (deadline : Option Deadline) :
    Except Failure Metrics × Option Deadline :=
  (Walk.fold (fun (m : Metrics) v => .ok (m.count v.node.label)) ⟨1, lines, 0, 0⟩ root deadline).result

def pendingNodes : List (Node × Nat) → Nat
  | [] => 0
  | (n, _) :: rest => n.size + pendingNodes rest

theorem pendingNodes_append (xs ys : List (Node × Nat)) :
    pendingNodes (xs ++ ys) = pendingNodes xs + pendingNodes ys := by
  induction xs with
  | nil => simp [pendingNodes]
  | cons x xs ih => obtain ⟨n, d⟩ := x; simp [pendingNodes, ih, Nat.add_assoc]

def atDepth (depth : Nat) (cs : List Node) : List (Node × Nat) := cs.map fun c => (c, depth)

theorem pendingNodes_atDepth (d : Nat) (cs : List Node) : pendingNodes (atDepth d cs) = Node.sizes cs := by
  induction cs with
  | nil => simp [atDepth, pendingNodes, Node.sizes]
  | cons c cs ih =>
    simp only [atDepth] at ih
    simp [atDepth, pendingNodes, Node.sizes, ih]

def depthBelow (l : Label) (depth : Nat) : Nat := if l.isLoop then depth + 1 else depth

/-- The deepest nesting reached from a work list of nodes, each with the number of loops around it;
`deepest` is what has been reached before. -/
def deepestFrom (todo : List (Node × Nat)) (deepest : Nat) : Nat :=
  match todo with
  | [] => deepest
  | (.mk l _ cs, depth) :: rest =>
    deepestFrom (atDepth (depthBelow l depth) cs ++ rest)
      (if l.isLoop then max deepest (depth + 1) else deepest)
termination_by pendingNodes todo
decreasing_by
  simp only [pendingNodes_append, pendingNodes_atDepth, pendingNodes, Node.size]
  omega

/-- The deepest nesting of loops in a tree; the root counts when it is a loop itself. -/
def maxLoopDepth (n : Node) : Nat := deepestFrom [(n, 0)] 0

end CodeReview.Syntax
