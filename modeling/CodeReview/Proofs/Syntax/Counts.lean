import Mathlib.Algebra.BigOperators.Ring.Finset
import CodeReview.Proofs.Grammar.Places
import CodeReview.Proofs.Syntax.Visits
import CodeReview.Syntax.Metrics
/-!
# Counts of nodes

Both walks that measure a tree count nodes by their labels: complexity is one more than the number of decisions, and a node
counted as a function or a class is no decision (`cyclomaticComplexity_none`, `collectMetrics_none`).  A count over the visits
of a walk is the number of places in the tree (`ncard_places_eq`), and what a node adds to the counts of its children is its
own label (`countP_nodes_eq`).
-/
namespace CodeReview.Syntax
namespace Node

def nodes (n : Node) : List Node := (n.preorder none).map (·.node)

theorem map_node_preorder (n : Node) (parent : Option Node) : (n.preorder parent).map (·.node) = n.nodes := by
  cases n; rfl

theorem nodes_mk (l : Label) (c : Option Condition) (cs : List Node) : (mk l c cs).nodes = mk l c cs :: cs.flatMap nodes := by
  have hbelow : ∀ n : Node, (n.preorder (some (mk l c cs))).map (·.node) = n.nodes := fun n => map_node_preorder n _
  rw [nodes, preorder, preorders_eq, List.map_cons, List.map_flatMap]
  simp only [hbelow]

theorem countP_nodes_eq (p : Label → Bool) (n : Node) : (n.nodes.countP fun n => p n.label) =
    (if p n.label = true then 1 else 0) + (n.children.map fun n => n.nodes.countP fun n => p n.label).sum := by
  obtain ⟨l, c, cs⟩ := n
  rw [nodes_mk, List.countP_cons, List.countP_flatMap, Nat.add_comm]
  rfl

/-! ## Places -/

def places (n : Node) (p : Label → Bool) : Set (List Nat) := {path | ∃ m, n.at? path = some m ∧ p m.label = true}

mutual

theorem map_at_paths : ∀ (n : Node), n.paths.map n.at? = n.nodes.map some
  | mk l c cs => by
    rw [paths, nodes_mk, List.map_cons, List.map_cons, map_at_pathsFrom cs (mk l c cs) 0 rfl]
    rfl

theorem map_at_pathsFrom : ∀ (cs : List Node) (n : Node) (i : Nat), n.children.drop i = cs →
    (pathsFrom i cs).map n.at? = (cs.flatMap nodes).map some
  | [], _, _, _ => rfl
  | c :: cs, n, i, h => by
    have hc : n.children[i]? = some c := by rw [← List.head?_drop, h]; rfl
    have hrest : n.children.drop (i + 1) = cs := by rw [← List.tail_drop, h]; rfl
    have hbelow : n.at? ∘ (i :: ·) = c.at? := by
      funext q
      rw [Function.comp_apply, at?, hc, Option.bind_some]
    rw [pathsFrom, List.map_append, List.map_map, hbelow, map_at_paths c, map_at_pathsFrom cs n (i + 1) hrest,
      List.flatMap_cons, List.map_append]

end

/-- **A count over the nodes is the number of places.** -/
theorem ncard_places_eq (n : Node) (p : Label → Bool) : (n.places p).ncard = n.nodes.countP fun m => p m.label := by
  have hset : n.places p = ((n.paths.filter fun q => (n.at? q).any fun m => p m.label).toFinset : Set (List Nat)) := by
    ext q
    simp only [places, Set.mem_ofPred_eq, List.coe_toFinset, List.mem_filter, mem_paths, Option.any_eq_true]
    constructor
    · rintro ⟨m, hm, hp⟩
      exact ⟨by rw [hm]; rfl, m, hm, hp⟩
    · rintro ⟨-, m, hm, hp⟩
      exact ⟨m, hm, hp⟩
  have hcount : n.paths.countP (fun q => (n.at? q).any fun m => p m.label) =
      (n.paths.map n.at?).countP fun o => o.any fun m => p m.label := by
    rw [List.countP_map]
    rfl
  rw [hset, Set.ncard_coe_finset, List.toFinset_card_of_nodup ((nodup_paths n).filter _), ← List.countP_eq_length_filter,
    hcount, map_at_paths, List.countP_map]
  rfl

end Node

/-! ## What the walks measure -/

theorem foldl_ite_eq_countP {α : Type} (p : α → Bool) (xs : List α) : ∀ k : Nat,
    xs.foldl (fun n x => if p x = true then n + 1 else n) k = k + xs.countP p := by
  induction xs with
  | nil => intro k; rfl
  | cons x xs ih =>
    intro k
    rw [List.foldl_cons, List.countP_cons, ih]
    by_cases hx : p x = true
    · rw [if_pos hx, if_pos hx]; omega
    · rw [if_neg hx, if_neg hx]; omega

/-- **Complexity is one more than the number of decisions.** -/
theorem cyclomaticComplexity_none (root : Node) :
    cyclomaticComplexity root none = (.ok (1 + root.nodes.countP fun n => n.label.isDecision), none) := by
  rw [cyclomaticComplexity, Walk.fold_ok_none, foldl_ite_eq_countP, Node.nodes, List.countP_map]
  rfl

def Metrics.counted (root : Node) (lines : Int) : Metrics where
  complexity := 1 + root.nodes.countP fun n => n.label.isDecision
  lines
  functions := root.nodes.countP fun n => n.label.kind == .function
  classes := root.nodes.countP fun n => n.label.kind == .classDecl

theorem Label.kind_of_isDecision {l : Label} (h : l.isDecision = true) :
    (l.kind == .function) = false ∧ (l.kind == .classDecl) = false := by
  unfold isDecision isShortCircuit at h
  cases hk : l.kind <;> first | exact ⟨rfl, rfl⟩ | simp [hk, Kind.isBranch, Kind.isLoop] at h

theorem Metrics.count_eq (m : Metrics) (l : Label) : m.count l = {
    complexity := m.complexity + if l.isDecision = true then 1 else 0
    lines := m.lines
    functions := m.functions + if (l.kind == .function) = true then 1 else 0
    classes := m.classes + if (l.kind == .classDecl) = true then 1 else 0 } := by
  unfold count
  by_cases hd : l.isDecision = true
  · obtain ⟨hf, hc⟩ := Label.kind_of_isDecision hd
    simp [hd, hf, hc]
  · by_cases hf : (l.kind == .function) = true
    · have hc : (l.kind == .classDecl) = false := by rw [beq_iff_eq.1 hf]; rfl
      simp [hd, hf, hc]
    · by_cases hc : (l.kind == .classDecl) = true
      · simp [hd, hf, hc]
      · simp [hd, hf, hc]

theorem Metrics.foldl_count (ns : List Node) : ∀ m : Metrics, ns.foldl (fun m n => m.count n.label) m = {
    complexity := m.complexity + ns.countP fun n => n.label.isDecision
    lines := m.lines
    functions := m.functions + ns.countP fun n => n.label.kind == .function
    classes := m.classes + ns.countP fun n => n.label.kind == .classDecl } := by
  induction ns with
  | nil => intro m; simp
  | cons n ns ih =>
    intro m
    rw [List.foldl_cons, ih, Metrics.count_eq]
    simp only [List.countP_cons, Metrics.mk.injEq, true_and]
    refine ⟨?_, ?_, ?_⟩ <;> split <;> push_cast <;> omega

/-- **The metrics of a tree are counts of its nodes.** -/
theorem collectMetrics_none (root : Node) (lines : Int) :
    collectMetrics root lines none = (.ok (Metrics.counted root lines), none) := by
  have hfold : (root.preorder none).foldl (fun (m : Metrics) v => m.count v.node.label) ⟨1, lines, 0, 0⟩ =
      root.nodes.foldl (fun m n => m.count n.label) ⟨1, lines, 0, 0⟩ := by
    rw [Node.nodes, List.foldl_map]
  rw [collectMetrics, Walk.fold_ok_none, hfold, Metrics.foldl_count]
  simp [Metrics.counted]

/-- Metrics that count the places of a tree. -/
structure Metrics.CountPlaces (m : Metrics) (root : Node) : Prop where
  complexity : m.complexity = 1 + (root.places fun l => l.kind.isBranch || l.isShortCircuit).ncard
  functions : m.functions = (root.places fun l => l.kind == .function).ncard
  classes : m.classes = (root.places fun l => l.kind == .classDecl).ncard

theorem Metrics.counted_places (root : Node) (lines : Int) : (counted root lines).CountPlaces root := by
  refine ⟨?_, ?_, ?_⟩ <;> rw [Node.ncard_places_eq] <;> rfl

/-- Metrics of a node that are those of its children and what the node counts for itself. -/
structure Metrics.AddUp (m : Metrics) (l : Label) (ms : List Metrics) : Prop where
  complexity : m.complexity - 1 =
    (if l.kind.isBranch = true ∨ l.isShortCircuit = true then 1 else 0) + (ms.map fun m => m.complexity - 1).sum
  functions : m.functions = (if l.kind = .function then 1 else 0) + (ms.map (·.functions)).sum
  classes : m.classes = (if l.kind = .classDecl then 1 else 0) + (ms.map (·.classes)).sum

/-- **What a node counts for comes on top of its children.** -/
theorem Metrics.counted_addUp (root : Node) (lines : Int) :
    (counted root lines).AddUp root.label (root.children.map fun n => counted n lines) := by
  have hcount : ∀ p : Label → Bool, ((root.nodes.countP fun n => p n.label : Nat) : Int) =
      (if p root.label = true then 1 else 0) +
        (root.children.map fun n => ((n.nodes.countP fun n => p n.label : Nat) : Int)).sum := by
    intro p
    rw [Node.countP_nodes_eq, Nat.cast_add, Nat.cast_list_sum, List.map_map, Nat.cast_ite]
    rfl
  have hcomplexity := hcount Label.isDecision
  have hfunctions := hcount fun l => l.kind == .function
  have hclasses := hcount fun l => l.kind == .classDecl
  simp only [Label.isDecision, Bool.or_eq_true] at hcomplexity
  simp only [beq_iff_eq] at hfunctions hclasses
  constructor
  · simpa only [counted, Label.isDecision, List.map_map, Function.comp_def, add_sub_cancel_left] using hcomplexity
  · simpa only [counted, List.map_map, Function.comp_def] using hfunctions
  · simpa only [counted, List.map_map, Function.comp_def] using hclasses

end CodeReview.Syntax
