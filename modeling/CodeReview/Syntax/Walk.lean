import CodeReview.Syntax.Deadline
import CodeReview.Syntax.Node
/-!
# Walking a tree

`preorder` is the plain recursion: a node with its parent, then the subtrees of its children from left to
right. `Walk.run` goes through the same visits with a work list, so that no depth of nesting can exhaust
the stack; it hands each visit to a step with a state, stops at the first failure, and looks at the clock
after every 512th visit, once the step has been taken.
-/
namespace CodeReview.Syntax

/-- A node met on a walk, with the node right above it. -/
structure Visit where
  node : Node
  parent : Option Node

mutual

/-- The visits of a tree, parents before children and children from left to right. -/
def Node.preorder (parent : Option Node) : Node → List Visit
  | .mk l c cs => ⟨.mk l c cs, parent⟩ :: Node.preorders (some (.mk l c cs)) cs

def Node.preorders (parent : Option Node) : List Node → List Visit
  | [] => []
  | c :: cs => Node.preorder parent c ++ Node.preorders parent cs

end

/-- The outcome of a walk: the state it ended in, the failure that stopped it, and the time budget as it
was left. -/
structure Walk (β : Type) where
  state : β
  failure : Option Failure
  deadline : Option Deadline

def pending : List Visit → Nat
  | [] => 0
  | v :: vs => v.node.size + pending vs

def Visit.below (v : Visit) : List Visit := v.node.children.map fun c => ⟨c, some v.node⟩

theorem pending_append (xs ys : List Visit) : pending (xs ++ ys) = pending xs + pending ys := by
  induction xs with
  | nil => simp [pending]
  | cons v vs ih => simp [pending, ih, Nat.add_assoc]

theorem pending_below (p : Option Node) (cs : List Node) :
    pending (cs.map fun c => (⟨c, p⟩ : Visit)) = Node.sizes cs := by
  induction cs with
  | nil => simp [pending, Node.sizes]
  | cons c cs ih => simp [pending, Node.sizes, ih]

theorem pending_below_lt (v : Visit) : pending v.below < v.node.size := by
  obtain ⟨⟨l, c, cs⟩, p⟩ := v
  simp only [Visit.below, Node.children, pending_below, Node.size]
  omega

namespace Walk

variable {β : Type}

/-- Walks through a work list; `count` visits have been made. -/
def run (step : β → Visit → Except Failure β) (todo : List Visit) (count : Nat) (state : β)
    (deadline : Option Deadline) : Walk β :=
  match todo with
  | [] => ⟨state, none, deadline⟩
  | v :: rest =>
    match step state v with
    | .error e => ⟨state, some e, deadline⟩
    | .ok state =>
      match Deadline.poll (count + 1) deadline with
      | (some e, deadline) => ⟨state, some e, deadline⟩
      | (none, deadline) => run step (v.below ++ rest) (count + 1) state deadline
termination_by pending todo
decreasing_by
  simp only [pending_append, pending]
  have := pending_below_lt v
  omega

def fold (step : β → Visit → Except Failure β) (state : β) (root : Node)
    (deadline : Option Deadline) : Walk β :=
  run step [⟨root, none⟩] 0 state deadline

/-- Collects what each visit yields, in order. The state holds what was collected, last first. -/
def collect {α : Type} (yield : Visit → Except Failure (List α)) (root : Node)
    (deadline : Option Deadline) : Walk (List α) :=
  let w := fold (fun done v => (yield v).map fun new => new.reverse ++ done) [] root deadline
  { w with state := w.state.reverse }

/-- The visits of a tree, as far as the time budget lets them be made. -/
def traverse (root : Node) (deadline : Option Deadline) : Walk (List Visit) :=
  collect (fun v => .ok [v]) root deadline

def result (w : Walk β) : Except Failure β × Option Deadline :=
  (match w.failure with
    | some e => .error e
    | none => .ok w.state, w.deadline)

end Walk
end CodeReview.Syntax
