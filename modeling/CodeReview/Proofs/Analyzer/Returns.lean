import CodeReview.Proofs.Analyzer.Found
import CodeReview.Proofs.Analyzer.Placed
/-!
# Statements after a return

In a block the pass for bugs tells of each statement that stands right after a return: once for each return that is not the
last statement (`forall₂_afterReturns`), over a whole tree in the order of the blocks and then of the returns (`made_returns`).
-/
namespace CodeReview.Analyzer

open Syntax (Node)

/-- A return statement: bare, or alone in an expression statement. -/
def IsReturnStatement (n : Node) : Prop :=
  n.kind = .returnStmt ∨ n.label.grammarType = "expression_statement" ∧ ∃ c, n.children = [c] ∧ c.kind = .returnStmt

namespace Bugs

theorem isReturn_iff (n : Node) : isReturn n = true ↔ IsReturnStatement n := by
  unfold isReturn IsReturnStatement
  rw [Bool.or_eq_true, Bool.and_eq_true, beq_iff_eq]
  refine or_congr Iff.rfl (and_congr (by simp [statementWrappers]) ?_)
  split
  · rename_i d hd
    rw [hd, beq_iff_eq]
    exact ⟨fun h => ⟨d, rfl, h⟩, fun ⟨e, he, h⟩ => by cases he; exact h⟩
  · rename_i hother
    exact ⟨fun h => (by cases h), fun ⟨e, he, _⟩ => absurd he (hother e)⟩

theorem afterReturns_alike {cs ds : List Node}
    (h : List.Forall₂ (fun c d => c.label = d.label ∧ (IsReturnStatement c ↔ IsReturnStatement d)) cs ds) :
    (afterReturns cs).map unreachable = (afterReturns ds).map unreachable := by
  induction h with
  | nil => rfl
  | @cons c d cs ds hcd hrest ih =>
    cases hrest with
    | nil => rfl
    | @cons c' d' cs' ds' hcd' hrest' =>
      have hreturn : isReturn c = isReturn d := by
        rw [Bool.eq_iff_iff, isReturn_iff, isReturn_iff]
        exact hcd.2
      have hnext : unreachable c' = unreachable d' := by rw [unreachable, unreachable, hcd'.1]
      rw [afterReturns, afterReturns, List.map_append, List.map_append, ih, hreturn]
      refine congrArg (· ++ _) ?_
      split
      · rw [List.map_singleton, List.map_singleton, hnext]
      · rfl

/-! ## The returns of a block -/

/-- The positions of the returns among statements, but for the last statement. -/
def returnsIn (cs : List Node) : List Nat := (List.range (cs.length - 1)).filter fun i => (cs[i]?).any isReturn

theorem mem_returnsIn {cs : List Node} {i : Nat} :
    i ∈ returnsIn cs ↔ ∃ r s, cs[i]? = some r ∧ IsReturnStatement r ∧ cs[i + 1]? = some s := by
  rw [returnsIn, List.mem_filter, List.mem_range, Option.any_eq_true]
  constructor
  · rintro ⟨hi, r, hr, hreturn⟩
    have hnext : i + 1 < cs.length := by omega
    exact ⟨r, cs[i + 1], hr, (isReturn_iff r).1 hreturn, List.getElem?_eq_getElem hnext⟩
  · rintro ⟨r, s, hr, hreturn, hs⟩
    have hnext := (List.getElem?_eq_some_iff.1 hs).1
    exact ⟨by omega, r, hr, (isReturn_iff r).2 hreturn⟩

theorem returnsIn_cons (a b : Node) (cs : List Node) :
    returnsIn (a :: b :: cs) = (if isReturn a = true then [0] else []) ++ (returnsIn (b :: cs)).map (· + 1) := by
  have hlength : (a :: b :: cs).length - 1 = (b :: cs).length - 1 + 1 := rfl
  rw [returnsIn, hlength, List.range_succ_eq_map, List.filter_cons, List.filter_map]
  rw [List.getElem?_cons_zero, Option.any_some]
  split
  · rfl
  · rfl

/-- **A statement is told of for each return before it**, and for no other statement. -/
theorem forall₂_afterReturns : ∀ cs : List Node,
    List.Forall₂ (fun i s => cs[i + 1]? = some s) (returnsIn cs) (afterReturns cs)
  | [] => .nil
  | [_] => .nil
  | a :: b :: cs => by
    have hrest : List.Forall₂ (fun i s => (a :: b :: cs)[i + 1]? = some s)
        ((returnsIn (b :: cs)).map (· + 1)) (afterReturns (b :: cs)) :=
      List.forall₂_map_left_iff.2 (forall₂_afterReturns (b :: cs))
    rw [returnsIn_cons, afterReturns]
    refine List.rel_append ?_ hrest
    split
    · exact .cons rfl .nil
    · exact .nil

/-! ## The returns of a tree -/

/-- The places in a tree of the blocks with a return that is not last, each with the position of the return. -/
def returnPlaces (root : Node) : List (List Nat × Nat) :=
  root.paths.flatMap fun p => (root.at? p).elim [] fun b =>
    if b.kind == .block then (returnsIn b.children).map (Prod.mk p) else []

theorem mem_returnPlaces {root : Node} {p : List Nat} {i : Nat} : (p, i) ∈ returnPlaces root ↔
    ∃ b r s, root.at? p = some b ∧ b.kind = .block ∧ b.children[i]? = some r ∧ IsReturnStatement r ∧
      b.children[i + 1]? = some s := by
  rw [returnPlaces, List.mem_flatMap]
  constructor
  · rintro ⟨q, -, hmem⟩
    cases hb : root.at? q with
    | none => rw [hb] at hmem; cases hmem
    | some b =>
      rw [hb, Option.elim_some] at hmem
      obtain ⟨hblock, hmem⟩ := List.mem_ite_nil_right.1 hmem
      obtain ⟨j, hj, heq⟩ := List.mem_map.1 hmem
      cases heq
      obtain ⟨r, s, hr, hreturn, hs⟩ := mem_returnsIn.1 hj
      exact ⟨b, r, s, hb, beq_iff_eq.1 hblock, hr, hreturn, hs⟩
  · rintro ⟨b, r, s, hb, hblock, hr, hreturn, hs⟩
    refine ⟨p, (Node.mem_paths root p).2 (by rw [hb]; rfl), ?_⟩
    rw [hb, Option.elim_some, if_pos (beq_iff_eq.2 hblock)]
    exact List.mem_map_of_mem (mem_returnsIn.2 ⟨r, s, hr, hreturn, hs⟩)

theorem returnPlaces_sorted (root : Node) :
    (returnPlaces root).Pairwise fun x y => x.1 < y.1 ∨ x.1 = y.1 ∧ x.2 < y.2 := by
  have hpath : ∀ p, ∀ x ∈ (root.at? p).elim [] fun b =>
      if b.kind == .block then (returnsIn b.children).map (Prod.mk p) else [], x.1 = p := by
    intro p x hx
    cases hb : root.at? p with
    | none => rw [hb] at hx; cases hx
    | some b =>
      rw [hb, Option.elim_some] at hx
      obtain ⟨i, -, rfl⟩ := List.mem_map.1 (List.mem_ite_nil_right.1 hx).2
      rfl
  refine List.pairwise_flatMap.2 ⟨fun p _ => ?_, (Node.paths_sorted root).imp fun {p q} hlt x hx y hy => ?_⟩
  · cases root.at? p with
    | none => exact .nil
    | some b =>
      rw [Option.elim_some]
      split
      · have hin : (returnsIn b.children).Pairwise (· < ·) := List.pairwise_lt_range.filter _
        exact List.pairwise_map.2 (hin.imp fun {i j} hij => .inr ⟨rfl, hij⟩)
      · exact .nil
  · rw [hpath p x hx, hpath q y hy]
    exact .inl hlt

/-! ## Findings -/

/-- What is reported of the statements after a return: for which returns, and at which places. -/
structure ReportsReturns (path : String) (root : Node) (fs : List Finding) (places : List (List Nat × Nat)) : Prop where
  mem_iff : ∀ p i, (p, i) ∈ places ↔ ∃ b r s, root.at? p = some b ∧ b.kind = .block ∧ b.children[i]? = some r ∧
    IsReturnStatement r ∧ b.children[i + 1]? = some s
  sorted : places.Pairwise fun x y => x.1 < y.1 ∨ x.1 = y.1 ∧ x.2 < y.2
  told : List.Forall₂ (fun x f => ∃ s, root.at? (x.1 ++ [x.2 + 1]) = some s ∧
    f.location = { path, line := s.label.line, column := s.label.column }) places
    (fs.filter fun f => f.rule.id == unreachableRule)

section

variable {c : Context}

theorem filter_returns (root : Node) :
    (c.made group (root.nodes.flatMap (drafts c.rules))).filter (fun f => f.rule.id == unreachableRule) =
      root.paths.flatMap fun p => c.made group ((root.at? p).elim [] (returnCheck.drafts c.rules)) := by
  have hfirst : returnCheck.rule ≠ assignmentCheck.rule := by decide
  exact made_of_first drafts_eq hfirst root

theorem returnCheck_drafts (hon : c.rules.isEnabled unreachableRule = true) (n : Node) :
    returnCheck.drafts c.rules n = if (n.kind == .block) = true then (afterReturns n.children).map unreachable else [] :=
  Check.drafts_of_enabled hon n

/-- **Statements after a return are told of where they stand**, once for each return. -/
theorem made_returns (hon : c.rules.isEnabled unreachableRule = true)
    (hgroup : (c.rules.enabledIn? group unreachableRule).isSome = true) (root : Node) :
    ReportsReturns c.path root (c.made group (root.nodes.flatMap (drafts c.rules))) (returnPlaces root) := by
  refine ⟨fun p i => mem_returnPlaces, returnPlaces_sorted root, ?_⟩
  rw [filter_returns, returnPlaces]
  refine forall₂_flatMap fun p _ => ?_
  cases hp : root.at? p with
  | none => exact .nil
  | some b =>
    rw [Option.elim_some, Option.elim_some, returnCheck_drafts hon]
    -- of a block, each return is paired with the draft of the statement behind it
    split
    · refine forall₂_made (S := fun x d => ∃ s, root.at? (x.1 ++ [x.2 + 1]) = some s ∧ d = unreachable s) ?_ ?_
      · refine List.forall₂_map_left_iff.2 (List.forall₂_map_right_iff.2 ((forall₂_afterReturns b.children).imp ?_))
        intro i s hs
        refine ⟨s, ?_, rfl⟩
        rw [Node.at?_append, hp, Option.bind_some, Node.at?, hs]
        rfl
      · rintro x d ⟨s, hs, rfl⟩
        obtain ⟨f, hf⟩ := exists_finding (d := unreachable s) hgroup (show unreachableRule ≠ "" by decide)
        exact ⟨f, hf, s, hs, (finding_tells hf).2.2.2⟩
    · exact .nil

theorem made_returns_of_disabled (hoff : c.rules.isEnabled unreachableRule = false) (root : Node) :
    ∀ f ∈ c.made group (root.nodes.flatMap (drafts c.rules)), f.rule.id ≠ unreachableRule := by
  intro f hf hrule
  have hmem : f ∈ (c.made group (root.nodes.flatMap (drafts c.rules))).filter fun f => f.rule.id == unreachableRule :=
    List.mem_filter.2 ⟨hf, beq_iff_eq.2 hrule⟩
  rw [filter_returns] at hmem
  obtain ⟨p, -, hmem⟩ := List.mem_flatMap.1 hmem
  cases hp : root.at? p with
  | none => rw [hp] at hmem; cases hmem
  | some n =>
    have hnone : returnCheck.drafts c.rules n = [] := Check.drafts_of_disabled hoff n
    rw [hp, Option.elim_some, hnone] at hmem
    cases hmem

end

end Bugs

end CodeReview.Analyzer
