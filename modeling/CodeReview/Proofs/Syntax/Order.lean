import CodeReview.Proofs.Syntax.Counts
/-!
# The order of a tree

Parents stand before their children and children stand from left to right: the paths of a tree are in the lexicographic order
of child positions, each once (`paths_sorted`).  What is made at each node of a walk is made at each path, in this order
(`flatMap_nodes_eq`).
-/
namespace CodeReview.Syntax.Node

mutual

/-- **The paths of a tree are in order**, and none of them stands twice. -/
theorem paths_sorted : ∀ n : Node, n.paths.Pairwise (· < ·)
  | mk _ _ cs => by
    rw [paths, List.pairwise_cons]
    refine ⟨fun q hq => ?_, pathsFrom_sorted cs 0⟩
    obtain ⟨j, p, rfl, -⟩ := lt_of_mem_pathsFrom hq
    exact List.nil_lt_cons j p

theorem pathsFrom_sorted : ∀ (cs : List Node) (i : Nat), (pathsFrom i cs).Pairwise (· < ·)
  | [], _ => List.Pairwise.nil
  | c :: cs, i => by
    rw [pathsFrom, List.pairwise_append]
    refine ⟨?_, pathsFrom_sorted cs (i + 1), ?_⟩
    · have hbelow : ∀ p q : List Nat, p < q → i :: p < i :: q := fun p q h => List.cons_lt_cons_iff.2 (.inr ⟨rfl, h⟩)
      exact List.pairwise_map.2 ((paths_sorted c).imp fun {p q} h => hbelow p q h)
    · intro x hx y hy
      obtain ⟨p, -, rfl⟩ := List.mem_map.1 hx
      obtain ⟨j, q, rfl, hj⟩ := lt_of_mem_pathsFrom hy
      exact List.cons_lt_cons_iff.2 (.inl hj)

end

/-- **What is made at the nodes of a tree is made at its paths**, in the same order. -/
theorem flatMap_nodes_eq {β : Type} (g : Node → List β) (n : Node) :
    n.nodes.flatMap g = n.paths.flatMap fun p => (n.at? p).elim [] g := by
  have hsome : ∀ ms : List Node, (ms.map some).flatMap (fun o => o.elim [] g) = ms.flatMap g := fun ms => List.flatMap_map ..
  rw [← hsome, ← map_at_paths, List.flatMap_map]

end CodeReview.Syntax.Node
