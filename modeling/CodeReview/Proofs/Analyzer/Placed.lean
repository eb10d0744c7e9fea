import CodeReview.Proofs.Analyzer.Checks
/-!
# Where findings stand

What holds of the places of all nodes of a tree and of their conditions (`Placed`), and of the first place of a file, holds of
the places of all findings of the built-in analyzers (`builtin_places`): each check tells of the node that it looks at, of a
child of it or of its condition (`Draft.Near`), and complexity is told of the file as a whole.
-/
namespace CodeReview
namespace Syntax.Node

theorem at?_append (n : Node) : ∀ p q : List Nat, n.at? (p ++ q) = (n.at? p).bind fun m => m.at? q
  | [], q => rfl
  | i :: p, q => by
    rw [List.cons_append, at?, at?]
    cases n.children[i]? with
    | none => rfl
    | some c => exact at?_append c p q

mutual

theorem exists_at_of_mem_preorder : ∀ (n : Node) (parent : Option Node), ∀ v ∈ n.preorder parent,
    ∃ p, n.at? p = some v.node
  | .mk l c cs, parent, v, hv => by
    rcases List.mem_cons.1 hv with rfl | hv
    · exact ⟨[], rfl⟩
    · obtain ⟨i, p, h⟩ := exists_at_of_mem_preorders cs _ v hv
      exact ⟨i :: p, h⟩

theorem exists_at_of_mem_preorders : ∀ (cs : List Node) (parent : Option Node), ∀ v ∈ preorders parent cs,
    ∃ (i : Nat) (p : List Nat), ((cs[i]?).bind fun c => at? c p) = some v.node
  | [], parent, v, hv => by cases hv
  | c :: cs, parent, v, hv => by
    rcases List.mem_append.1 hv with hv | hv
    · obtain ⟨p, h⟩ := exists_at_of_mem_preorder c parent v hv
      exact ⟨0, p, h⟩
    · obtain ⟨i, p, h⟩ := exists_at_of_mem_preorders cs parent v hv
      exact ⟨i + 1, p, h⟩

end

/-- That something holds of the first line and column of a file, of those of all nodes of a tree and of what they test. -/
structure Placed (Q : Int → Int → Prop) (root : Node) : Prop where
  start : Q 1 1
  nodes : ∀ p m, root.at? p = some m → Q m.label.line m.label.column
  tests : ∀ p m l, root.at? p = some m → m.test? = some l → Q l.line l.column

end Syntax.Node

open Syntax (Deadline Label Node)

/-- Where a draft about a node stands: at the start of the file, at the node, at a child of it or at what it tests. -/
inductive Draft.Near (n : Node) (d : Draft) : Prop
  | start : d.line = 1 → d.column = 1 → Near n d
  | here : d.line = n.label.line → d.column = n.label.column → Near n d
  | child {m : Node} : m ∈ n.children → d.line = m.label.line → d.column = m.label.column → Near n d
  | test {l : Label} : n.test? = some l → d.line = l.line → d.column = l.column → Near n d

theorem Draft.Near.placed {Q : Int → Int → Prop} {root n : Node} {d : Draft} (hd : Draft.Near n d) (h : root.Placed Q)
    {p : List Nat} (hn : root.at? p = some n) : Q d.line d.column := by
  cases hd with
  | start hline hcolumn =>
    rw [hline, hcolumn]
    exact h.start
  | here hline hcolumn =>
    rw [hline, hcolumn]
    exact h.nodes p n hn
  | @child m hm hline hcolumn =>
    obtain ⟨i, hi⟩ := List.mem_iff_getElem?.1 hm
    have hchild : root.at? (p ++ [i]) = some m := by
      rw [Node.at?_append, hn, Option.bind_some, Node.at?, hi]
      rfl
    rw [hline, hcolumn]
    exact h.nodes _ m hchild
  | test ht hline hcolumn =>
    rw [hline, hcolumn]
    exact h.tests p n _ hn ht

namespace Analyzer

/-! ## The places that checks tell of -/

/-- Checks that tell of what is near the nodes that they look at. -/
def Check.Near (k : Check) : Prop := ∀ R n, ∀ d ∈ k.tells R n, Draft.Near n d

theorem Complexity.wholeCheck_near : Complexity.wholeCheck.Near := fun R n d hd => by
  have hd : d ∈ Complexity.drafts R _ := hd
  unfold Complexity.drafts at hd
  dsimp only at hd
  rw [List.mem_singleton.1 (List.mem_ite_nil_left.1 hd).2]
  exact .start rfl rfl

theorem Security.evalCheck_near : Security.evalCheck.Near := fun R n d hd => by
  rw [List.mem_singleton.1 hd]
  exact .here rfl rfl

theorem Security.innerCheck_near : Security.innerCheck.Near := fun R n d hd => by
  rw [List.mem_singleton.1 hd]
  exact .here rfl rfl

theorem Performance.loopCheck_near : Performance.loopCheck.Near := fun R n d hd => by
  have hd : d ∈ Performance.nestedLoops R n := hd
  unfold Performance.nestedLoops at hd
  dsimp only at hd
  rw [List.mem_singleton.1 (List.mem_ite_nil_right.1 hd).2]
  exact .here rfl rfl

theorem Performance.arrayCheck_near : Performance.arrayCheck.Near := fun R n d hd => by
  have hd : d ∈ Performance.largeArray R n := hd
  unfold Performance.largeArray at hd
  dsimp only at hd
  rw [List.mem_singleton.1 (List.mem_ite_nil_right.1 hd).2]
  exact .here rfl rfl

theorem Bugs.afterReturns_subset : ∀ (cs : List Node), ∀ m ∈ Bugs.afterReturns cs, m ∈ cs
  | [], m, hm => by cases hm
  | [a], m, hm => by cases hm
  | a :: b :: rest, m, hm => by
    rw [Bugs.afterReturns, List.mem_append, List.mem_ite_nil_right, List.mem_singleton] at hm
    rcases hm with ⟨-, rfl⟩ | hm
    · simp
    · exact List.mem_cons_of_mem a (afterReturns_subset (b :: rest) m hm)

theorem Bugs.returnCheck_near : Bugs.returnCheck.Near := fun R n d hd => by
  obtain ⟨m, hm, rfl⟩ := List.mem_map.1 hd
  exact .child (Bugs.afterReturns_subset n.children m hm) rfl rfl

theorem Bugs.assignmentCheck_near : Bugs.assignmentCheck.Near := fun R n d hd => by
  obtain ⟨l, hl, rfl⟩ := List.mem_map.1 hd
  exact .test (Option.filter_eq_some_iff.1 (Option.mem_toList.1 hl)).1 rfl rfl

theorem checks_near : ∀ p ∈ checkedPasses, ∀ k ∈ p.checks, k.Near := by
  simp only [checkedPasses, Pass.complexity, Pass.ofDrafts, List.forall_mem_cons, List.not_mem_nil, false_implies,
    implies_true, and_true]
  exact ⟨Complexity.wholeCheck_near, ⟨Security.evalCheck_near, Security.innerCheck_near⟩,
    ⟨Performance.loopCheck_near, Performance.arrayCheck_near⟩, Bugs.returnCheck_near, Bugs.assignmentCheck_near⟩

/-! ## The places of findings -/

theorem exists_at_of_mem_nodes (root : Node) : ∀ p ∈ checkedPasses, ∀ n ∈ p.nodes root, ∃ path, root.at? path = some n := by
  have hwhole : ∀ n ∈ [root], ∃ path, root.at? path = some n := fun n hn => ⟨[], by rw [List.mem_singleton.1 hn]; rfl⟩
  have hall : ∀ n ∈ (root.preorder none).map (·.node), ∃ path, root.at? path = some n := by
    intro n hn
    obtain ⟨v, hv, rfl⟩ := List.mem_map.1 hn
    exact Node.exists_at_of_mem_preorder root none v hv
  simp only [checkedPasses, List.forall_mem_cons, List.not_mem_nil, false_implies, implies_true, and_true]
  exact ⟨hwhole, hall, hall, hall⟩

/-- **A finding of a built-in analyzer is that of a draft** which one of its checks has made of a node. -/
theorem exists_draft_of_ok {p : Pass} (hp : p ∈ checkedPasses) {c : Context} {root : Node} {dl : Option Deadline}
    {fs : List Finding} (h : (p.analyzer.analyze c root dl).1 = .ok fs) : ∀ f ∈ fs, ∃ n ∈ p.nodes root, ∃ k ∈ p.checks,
      ∃ d ∈ k.drafts c.rules n, c.finding p.analyzer.name d = .ok f := by
  have hbuiltin : p.analyzer ∈ Registry.builtin.analyzers := by
    rw [← checkedPasses_analyzers]
    exact List.mem_map_of_mem hp
  -- a pass that completes finds what it finds without a time budget
  rcases builtin_sameOrSpent c root p.analyzer hbuiltin dl with hsame | ⟨d, -, hspent⟩
  · rw [hsame, p.analyze_none] at h
    intro f hf
    obtain ⟨d, hd, hdf⟩ := (findings_spec c p.analyzer.name _).1 fs h f hf
    obtain ⟨n, hn, hd⟩ := List.mem_flatMap.1 hd
    obtain ⟨k, hk, hd⟩ := List.mem_flatMap.1 hd
    exact ⟨n, hn, k, hk, d, hd, hdf⟩
  · rw [hspent] at h
    cases h

theorem finding_place {c : Context} {group : String} {d : Draft} {f : Finding} (h : c.finding group d = .ok f) :
    f.location.line = d.line ∧ f.location.column = d.column := by
  unfold Context.finding at h
  split at h
  · cases h
  · split at h
    · cases h
    · cases h
      exact ⟨rfl, rfl⟩

/-- **The findings of built-in analyzers stand where the tree does.** -/
theorem builtin_places {x : Analyzer} (hx : x ∈ Registry.builtin.analyzers) {Q : Int → Int → Prop} {c : Context}
    {root : Node} (hroot : root.Placed Q) {dl : Option Deadline} {fs : List Finding}
    (h : (x.analyze c root dl).1 = .ok fs) : ∀ f ∈ fs, Q f.location.line f.location.column := by
  rw [← checkedPasses_analyzers] at hx
  obtain ⟨p, hp, rfl⟩ := List.mem_map.1 hx
  intro f hf
  obtain ⟨n, hn, k, hk, d, hd, hdf⟩ := exists_draft_of_ok hp h f hf
  obtain ⟨path, hat⟩ := exists_at_of_mem_nodes root p hp n hn
  rw [(finding_place hdf).1, (finding_place hdf).2]
  exact (checks_near p hp k hk c.rules n d (List.mem_ite_nil_right.1 hd).2).placed hroot hat

end Analyzer
end CodeReview
