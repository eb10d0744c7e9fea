import CodeReview.Proofs.Syntax.Order
/-!
# The visits of a traversal

A traversal makes the visits of the recursion, which are those at the paths of the tree, each with the node right above it
(`map_visitAt_paths`).  Within a time budget it makes the same visits (`traverse_of_unspent`), or the first 512, 1024, … of
them (`traverse_of_first`).
-/
namespace CodeReview.Syntax

namespace Node

/-- The visit at a path of a tree whose root is below `parent`. -/
def visitBelow (parent : Option Node) (n : Node) (path : List Nat) : Option Visit :=
  (n.at? path).map fun m => ⟨m, if path = [] then parent else n.at? path.dropLast⟩

/-- The visit at a path: the node there, with the node at the path to its parent. -/
def visitAt? (root : Node) (path : List Nat) : Option Visit := visitBelow none root path

theorem visitBelow_cons {n c : Node} {i : Nat} (hc : n.children[i]? = some c) (parent : Option Node) (path : List Nat) :
    visitBelow parent n (i :: path) = visitBelow (some n) c path := by
  have hbelow : ∀ q, n.at? (i :: q) = c.at? q := fun q => by rw [at?, hc, Option.bind_some]
  rw [visitBelow, visitBelow, hbelow]
  congr 1
  funext m
  rw [if_neg (List.cons_ne_nil i path)]
  cases path with
  | nil => rfl
  | cons j path => rw [if_neg (List.cons_ne_nil j path), List.dropLast_cons_cons, hbelow]

mutual

theorem map_visitBelow_paths : ∀ (n : Node) (parent : Option Node),
    n.paths.map (visitBelow parent n) = (n.preorder parent).map some
  | mk l c cs, parent => by
    rw [paths, preorder, List.map_cons, List.map_cons, map_visitBelow_pathsFrom cs (mk l c cs) parent 0 rfl]
    rfl

theorem map_visitBelow_pathsFrom : ∀ (cs : List Node) (n : Node) (parent : Option Node) (i : Nat), n.children.drop i = cs →
    (pathsFrom i cs).map (visitBelow parent n) = (preorders (some n) cs).map some
  | [], _, _, _, _ => rfl
  | c :: cs, n, parent, i, h => by
    have hc : n.children[i]? = some c := by rw [← List.head?_drop, h]; rfl
    have hrest : n.children.drop (i + 1) = cs := by rw [← List.tail_drop, h]; rfl
    have hbelow : visitBelow parent n ∘ (i :: ·) = visitBelow (some n) c := funext fun q => visitBelow_cons hc parent q
    rw [pathsFrom, preorders, List.map_append, List.map_append, List.map_map, hbelow, map_visitBelow_paths c,
      map_visitBelow_pathsFrom cs n parent (i + 1) hrest]

end

/-- **The recursion visits each path of a tree**, in order. -/
theorem map_visitAt_paths (root : Node) : root.paths.map root.visitAt? = (root.preorder none).map some :=
  map_visitBelow_paths root none

end Node

namespace Walk

theorem along_visits : ∀ (vs done : List Visit) (dl : Option Deadline),
    along (fun done v => (Except.ok [v] : Except Failure (List Visit)).map fun new => new.reverse ++ done) vs done.length
      done dl =
      let out := Deadline.pollAll done.reverse vs dl
      ⟨out.2.reverse, out.1.1, out.1.2⟩
  | [], done, dl => by simp [along, Deadline.pollAll]
  | v :: vs, done, dl => by
    have ih := along_visits vs (v :: done)
    rw [List.length_cons, List.reverse_cons] at ih
    rw [along, Deadline.pollAll, List.length_reverse]
    dsimp only [Except.map]
    rcases Deadline.poll (done.length + 1) dl with ⟨_ | e, dl'⟩
    · exact ih dl'
    · simp

theorem traverse_eq_pollAll (root : Node) (dl : Option Deadline) : traverse root dl =
    let out := Deadline.pollAll [] (root.preorder none) dl
    ⟨out.2, out.1.1, out.1.2⟩ := by
  have h := along_visits (root.preorder none) [] dl
  rw [traverse, collect, fold_eq_along]
  rw [List.length_nil, List.reverse_nil] at h
  rw [h]
  simp

theorem traverse_none (root : Node) : traverse root none = ⟨root.preorder none, none, none⟩ := by
  rw [traverse_eq_pollAll, Deadline.pollAll_none, List.nil_append]

theorem traverse_of_unspent (root : Node) (d : Deadline) (h : ∀ j < root.size / 512, d.spentAt j = false) :
    traverse root (some d) = ⟨root.preorder none, none, some (d.after (root.size / 512))⟩ := by
  rw [← length_preorder root none] at h ⊢
  rw [traverse_eq_pollAll, Deadline.pollAll_of_unspent _ d h]

theorem traverse_of_first (root : Node) (d : Deadline) (k : Nat) (hk : k < root.size / 512) (hs : d.spentAt k = true)
    (hu : ∀ j < k, d.spentAt j = false) : traverse root (some d) =
      ⟨(root.preorder none).take (512 * (k + 1)), some (spentFailure d.budget), some (d.after (k + 1))⟩ := by
  rw [← length_preorder root none] at hk
  rw [traverse_eq_pollAll, Deadline.pollAll_of_first _ [] k d (by simpa using hk) hs hu, List.nil_append,
    List.length_nil, Nat.zero_div, Nat.zero_add]

open Number (Quantity)

/-- **A traversal is the recursion, cut by its time budget at a multiple of 512.**  Without a budget it makes the visits of the
recursion, which are one for each path of the tree, each with the node right above it.  With one it looks at the clock after
every 512th visit, makes the same visits if no look finds the budget spent, and ends with the first look that does. -/
theorem traverse_refines_preorder (root : Node) :
    (∀ (l : Label) (c : Option Condition) (cs : List Node) (parent : Option Node), (Node.mk l c cs).preorder parent =
      ⟨.mk l c cs, parent⟩ :: cs.flatMap (Node.preorder (some (.mk l c cs)))) ∧
    traverse root none = ⟨root.preorder none, none, none⟩ ∧
    (root.preorder none).map some = root.paths.map root.visitAt? ∧
    root.paths.Pairwise (· < ·) ∧ (∀ path, path ∈ root.paths ↔ (root.at? path).isSome = true) ∧
    (root.preorder none).length = root.size ∧
    ∀ (budget : Quantity) (clock : Nat → Quantity) (d : Deadline), Deadline.start budget clock = .ok d →
      (clock 0).add budget = some d.expiresAt ∧
      (((∀ j, 1 ≤ j → j ≤ root.size / 512 → d.expiresAt.atMost (clock j) = false) ∧
          traverse root (some d) = ⟨root.preorder none, none, some { d with looks := 1 + root.size / 512 }⟩) ∨
        ∃ k, 1 ≤ k ∧ k ≤ root.size / 512 ∧ d.expiresAt.atMost (clock k) = true ∧
          (∀ j, 1 ≤ j → j < k → d.expiresAt.atMost (clock j) = false) ∧
          traverse root (some d) = ⟨(root.preorder none).take (512 * k),
            some (if budget.toFloat?.isSome = true then .timeout budget else .hugeInteger),
            some { d with looks := 1 + k }⟩) := by
  refine ⟨fun l c cs parent => ?_, traverse_none root, (Node.map_visitAt_paths root).symm, Node.paths_sorted root,
    Node.mem_paths root, length_preorder root none, fun budget clock d hstart => ?_⟩
  · rw [Node.preorder, preorders_eq]
  · rw [Deadline.start] at hstart
    cases hsum : (clock 0).add budget with
    | none => rw [hsum] at hstart; cases hstart
    | some expiresAt =>
      rw [hsum] at hstart
      cases hstart
      refine ⟨rfl, ?_⟩
      let d : Deadline := ⟨budget, expiresAt, clock, 1⟩
      have hspent : ∀ j, d.spentAt j = expiresAt.atMost (clock (1 + j)) := fun j => rfl
      -- the first look of a budget that has begun is the second reading
      rcases Deadline.lookOn_cases (root.size / 512) d with ⟨hu, -⟩ | ⟨k, hk, hs, hu, -⟩
      · refine .inl ⟨fun j hj hsize => ?_, traverse_of_unspent root d hu⟩
        have h := hu (j - 1) (by omega)
        rwa [hspent, Nat.add_sub_cancel' hj] at h
      · refine .inr ⟨k + 1, by omega, by omega, ?_, fun j hj hk' => ?_, ?_⟩
        · rwa [hspent, Nat.add_comm] at hs
        · have h := hu (j - 1) (by omega)
          rwa [hspent, Nat.add_sub_cancel' hj] at h
        · rw [traverse_of_first root d k hk hs hu, spentFailure_eq]
          rfl

def fan : Node :=
  .mk ⟨.module, "program", 1, 1, 1, 1, none, none, none⟩ none
    (List.replicate 511 (.mk ⟨.identifier, "identifier", 1, 1, 1, 2, none, none, none⟩ none []))

/-- A budget that is spent when the last node has been visited ends the traversal all the same, with all visits made. -/
theorem fan_cut_at_end : ∃ d, Deadline.start (.whole 5) (Deadline.clockOf [.whole 0, .whole 7]) = .ok d ∧
    traverse fan (some d) = ⟨fan.preorder none, some (.timeout (.whole 5)), some { d with looks := 2 }⟩ := by
  have hstart : Deadline.start (.whole 5) (Deadline.clockOf [.whole 0, .whole 7]) =
      .ok ⟨.whole 5, .whole 5, Deadline.clockOf [.whole 0, .whole 7], 1⟩ := rfl
  have hsize : fan.size = 512 := by decide +kernel
  obtain ⟨-, -, -, -, -, hlength, hcut⟩ := traverse_refines_preorder fan
  refine ⟨_, hstart, ?_⟩
  rcases (hcut _ _ _ hstart).2 with ⟨hunspent, -⟩ | ⟨k, hk, hle, -, -, htraverse⟩
  · have h := hunspent 1 (Nat.le_refl 1) (by rw [hsize])
    cases h
  · rw [hsize] at hle
    obtain rfl : k = 1 := by omega
    have htake : (fan.preorder none).take (512 * 1) = fan.preorder none :=
      List.take_of_length_le (by rw [hlength, hsize])
    have hfits : (Quantity.whole 5).toFloat?.isSome = true := by decide +kernel
    rw [htraverse, htake, if_pos hfits]

end Walk
end CodeReview.Syntax
