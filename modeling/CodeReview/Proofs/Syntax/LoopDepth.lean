import CodeReview.Syntax.Metrics
import Mathlib.Data.List.Chain
import Mathlib.Order.Bounds.Basic
/-!
# The depth of nested loops

The search for the deepest nesting goes through a work list, with the number of loops around each node.  What it comes to is
a recursion over the tree (`maxLoopDepth_eq`): a loop adds one to the deepest of its children.  That is the greatest number of
loops on a way down from the node (`maxLoopDepth_isGreatest`).
-/
namespace CodeReview.Syntax

variable {α : Type}

theorem le_foldr_max (f : α → Nat) : ∀ {xs : List α}, ∀ x ∈ xs, f x ≤ (xs.map f).foldr max 0
  | [], x, hx => by cases hx
  | y :: ys, x, hx => by
    rw [List.map_cons, List.foldr_cons]
    rcases List.mem_cons.1 hx with rfl | hx
    · exact Nat.le_max_left _ _
    · exact Nat.le_trans (le_foldr_max f x hx) (Nat.le_max_right _ _)

theorem exists_foldr_max (f : α → Nat) : ∀ {xs : List α}, xs ≠ [] → ∃ x ∈ xs, (xs.map f).foldr max 0 = f x
  | [], h => absurd rfl h
  | [x], _ => ⟨x, List.mem_singleton_self x, Nat.max_zero (f x)⟩
  | x :: y :: ys, _ => by
    obtain ⟨z, hz, hmax⟩ := exists_foldr_max f (List.cons_ne_nil y ys)
    rw [List.map_cons, List.foldr_cons, hmax]
    rcases Nat.le_total (f x) (f z) with hle | hle
    · exact ⟨z, List.mem_cons_of_mem x hz, Nat.max_eq_right hle⟩
    · exact ⟨x, List.mem_cons_self .., Nat.max_eq_left hle⟩

namespace Node

/-- Induction on trees: what holds of a node if it holds of its children holds of all nodes. -/
@[elab_as_elim]
theorem induction {motive : Node → Prop}
    (node : ∀ l c cs, (∀ n ∈ cs, motive n) → motive (mk l c cs)) (n : Node) : motive n := by
  cases n with
  | mk l c cs => exact node l c cs fun m _ => induction node m
termination_by n

mutual

/-- The deepest nesting of loops in a tree, by recursion. -/
def loopDepth : Node → Nat
  | mk l _ cs => (if l.isLoop = true then 1 else 0) + loopDepths cs

def loopDepths : List Node → Nat
  | [] => 0
  | c :: cs => max (loopDepth c) (loopDepths cs)

end

theorem loopDepths_eq (cs : List Node) : loopDepths cs = (cs.map loopDepth).foldr max 0 := by
  induction cs with
  | nil => rfl
  | cons c cs ih => rw [loopDepths, ih, List.map_cons, List.foldr_cons]

end Node

open Node (loopDepths)

/-! ## The search -/

/-- The deepest nesting that a work list leads to. -/
def reached : List (Node × Nat) → Nat
  | [] => 0
  | (n, depth) :: rest => max (depth + n.loopDepth) (reached rest)

theorem reached_append (xs ys : List (Node × Nat)) : reached (xs ++ ys) = max (reached xs) (reached ys) := by
  induction xs with
  | nil => simp [reached]
  | cons x xs ih =>
    obtain ⟨n, d⟩ := x
    rw [List.cons_append, reached, reached, ih, Nat.max_assoc]

theorem max_reached_atDepth {d k : Nat} (h : d ≤ k) (cs : List Node) :
    max k (reached (atDepth d cs)) = max k (d + loopDepths cs) := by
  induction cs with
  | nil =>
    have hnone : reached (atDepth d []) = 0 := rfl
    rw [hnone, loopDepths]
    omega
  | cons c cs ih =>
    have hcons : reached (atDepth d (c :: cs)) = max (d + c.loopDepth) (reached (atDepth d cs)) := rfl
    rw [hcons, loopDepths]
    omega

/-- **The search comes to what its work list leads to**, if no node has more loops around it than have been reached. -/
theorem deepestFrom_eq {todo : List (Node × Nat)} {k : Nat} (h : ∀ x ∈ todo, x.2 ≤ k) :
    deepestFrom todo k = max k (reached todo) := by
  fun_induction deepestFrom todo k with
  | case1 k => exact (Nat.max_zero k).symm
  | case2 k l c cs d rest ih =>
    have hd : d ≤ k := h (.mk l c cs, d) (List.mem_cons_self ..)
    have hrest : ∀ x ∈ rest, x.2 ≤ k := fun x hx => h x (List.mem_cons_of_mem _ hx)
    -- a loop is counted when it is met, so the loops around its children have been reached
    have hbelow : depthBelow l d ≤ if l.isLoop = true then max k (d + 1) else k := by
      unfold depthBelow
      split <;> omega
    have hnext : ∀ x ∈ atDepth (depthBelow l d) cs ++ rest, x.2 ≤ if l.isLoop = true then max k (d + 1) else k := by
      intro x hx
      rcases List.mem_append.1 hx with hx | hx
      · obtain ⟨m, -, rfl⟩ := List.mem_map.1 hx
        exact hbelow
      · have hk := hrest x hx
        split <;> omega
    have hchildren := max_reached_atDepth hbelow cs
    rw [dite_eq_ite] at ih
    rw [ih hnext, reached_append, ← Nat.max_assoc, hchildren, reached, Node.loopDepth]
    unfold depthBelow
    split <;> omega

theorem maxLoopDepth_eq_loopDepth (n : Node) : maxLoopDepth n = n.loopDepth := by
  have hstart : ∀ x ∈ [(n, 0)], x.2 ≤ 0 := fun x hx => by rw [List.mem_singleton.1 hx]
  rw [maxLoopDepth, deepestFrom_eq hstart, reached, reached]
  omega

/-- **A loop adds one to the deepest nesting in its children.** -/
theorem maxLoopDepth_eq (n : Node) :
    maxLoopDepth n = (if n.label.isLoop = true then 1 else 0) + (n.children.map maxLoopDepth).foldr max 0 := by
  obtain ⟨l, c, cs⟩ := n
  have hsame : maxLoopDepth = Node.loopDepth := funext maxLoopDepth_eq_loopDepth
  rw [hsame, Node.loopDepth, Node.loopDepths_eq]
  rfl

theorem maxLoopDepth_child_le {n c : Node} (h : c ∈ n.children) :
    (if n.label.isLoop = true then 1 else 0) + maxLoopDepth c ≤ maxLoopDepth n := by
  rw [maxLoopDepth_eq n]
  exact Nat.add_le_add_left (le_foldr_max maxLoopDepth c h) _

/-! ## Ways down -/

/-- That nodes lead down from a node, each being a child of the one before. -/
def Node.Descent (n : Node) (below : List Node) : Prop := List.IsChain (fun a b => b ∈ a.children) (n :: below)

theorem countP_descent_le : ∀ (below : List Node) (n : Node), n.Descent below →
    (n :: below).countP (·.label.isLoop) ≤ maxLoopDepth n
  | [], n, _ => by
    rw [maxLoopDepth_eq, List.countP_cons, List.countP_nil]
    omega
  | c :: below, n, h => by
    obtain ⟨hchild, hrest⟩ := List.isChain_cons_cons.1 h
    have ih := countP_descent_le below c hrest
    have hle := maxLoopDepth_child_le hchild
    rw [List.countP_cons]
    omega

theorem exists_descent (n : Node) : ∃ below, n.Descent below ∧ (n :: below).countP (·.label.isLoop) = maxLoopDepth n := by
  induction n using Node.induction with
  | node l c cs ih =>
    have hrec := maxLoopDepth_eq (.mk l c cs)
    by_cases hcs : cs = []
    · subst hcs
      refine ⟨[], List.isChain_singleton _, ?_⟩
      rw [hrec, List.countP_cons, Nat.add_comm]
      rfl
    · obtain ⟨m, hm, hmax⟩ := exists_foldr_max maxLoopDepth hcs
      obtain ⟨below, hbelow, hcount⟩ := ih m hm
      have hchildren : ((Node.mk l c cs).children.map maxLoopDepth).foldr max 0 = maxLoopDepth m := hmax
      refine ⟨m :: below, List.isChain_cons_cons.2 ⟨hm, hbelow⟩, ?_⟩
      rw [hrec, hchildren, List.countP_cons, hcount, Nat.add_comm]

/-- **The deepest nesting is the greatest number of loops on a way down.** -/
theorem maxLoopDepth_isGreatest (n : Node) :
    IsGreatest {k | ∃ below, n.Descent below ∧ (n :: below).countP (·.label.isLoop) = k} (maxLoopDepth n) := by
  refine ⟨exists_descent n, ?_⟩
  rintro k ⟨below, hbelow, rfl⟩
  exact countP_descent_le below n hbelow

/-! ## Places -/

theorem maxLoopDepth_at?_le : ∀ {p : List Nat} {n m : Node}, n.at? p = some m → maxLoopDepth m ≤ maxLoopDepth n
  | [], n, m, h => by
    cases h
    exact Nat.le_refl _
  | i :: p, n, m, h => by
    obtain ⟨c, hc, hm⟩ := Option.bind_eq_some_iff.1 h
    have hbelow := maxLoopDepth_at?_le hm
    have hchild := maxLoopDepth_child_le (List.mem_of_getElem? hc)
    omega

/-- Where loops nest at all, there is an outermost one at which the deepest nesting starts. -/
theorem exists_outermost {n : Node} (h : 0 < maxLoopDepth n) :
    ∃ p m, n.at? p = some m ∧ m.label.isLoop = true ∧ maxLoopDepth m = maxLoopDepth n := by
  induction n using Node.induction with
  | node l c cs ih =>
    by_cases hl : l.isLoop = true
    · exact ⟨[], .mk l c cs, rfl, hl, rfl⟩
    · have hrec : maxLoopDepth (.mk l c cs) = (cs.map maxLoopDepth).foldr max 0 := by
        rw [maxLoopDepth_eq, Node.label, if_neg hl, Nat.zero_add]
        rfl
      have hcs : cs ≠ [] := by
        rintro rfl
        rw [hrec] at h
        cases h
      obtain ⟨d, hd, hmax⟩ := exists_foldr_max maxLoopDepth hcs
      rw [hrec, hmax] at h ⊢
      obtain ⟨p, m, hm, hloop, hdepth⟩ := ih d hd h
      obtain ⟨i, hi⟩ := List.mem_iff_getElem?.1 hd
      refine ⟨i :: p, m, ?_, hloop, hdepth⟩
      rw [Node.at?, Node.children, hi, Option.bind_some, hm]

end CodeReview.Syntax
