import CodeReview.Grammar.Parser
import CodeReview.Proofs.Grammar.Stack
/-!
# Parsing within a time budget

Only the normalizer looks at a time budget.  A parse that fails without one therefore fails in the same way with one
(`parse_of_error`), and a parse that makes a tree looks at the clock as often as the tree has 512 nodes (`parse_of_ok`).
-/
namespace CodeReview.Grammar

open Syntax (Deadline)

theorem parse_of_error {host : Host} {tolerant : Bool} {session : Session} {text language : String}
    {e : ParseError} (h : (parse host tolerant session text language none).1.outcome = .error e)
    (dl : Option Deadline) : parse host tolerant session text language dl =
      ((parse host tolerant session text language none).1, dl) := by
  unfold parse at h ⊢
  cases hl : Language.ofName? language with
  | none => rfl
  | some l =>
    rw [hl] at h
    dsimp only at h ⊢
    cases hc : (chooseTree host text (tableOf l) session).outcome with
    | error e' => rfl
    | ok tree =>
      rw [hc] at h
      dsimp only [canonical] at h ⊢
      cases hm : tree.label.hasError && !tolerant with
      | true => rfl
      | false =>
        rw [hm, if_neg Bool.false_ne_true, normalize_none] at h
        cases h

/-- **A parse that makes a tree looks at its time budget once for every 512 nodes of it.** -/
theorem parse_of_ok {host : Host} {tolerant : Bool} {session : Session} {text language : String}
    {root : Syntax.Node} (h : (parse host tolerant session text language none).1.outcome = .ok root) :
    ∃ run : Syntax.Budgeted Syntax.Node, Syntax.Polled run (root.size / 512) ∧ (run none).1 = .ok root ∧
      ∀ dl, (parse host tolerant session text language dl).1.outcome = (run dl).1.mapError .failed ∧
        (parse host tolerant session text language dl).2 = (run dl).2 := by
  unfold parse at h ⊢
  cases hl : Language.ofName? language with
  | none => rw [hl] at h; cases h
  | some l =>
    rw [hl] at h
    dsimp only at h ⊢
    cases hc : (chooseTree host text (tableOf l) session).outcome with
    | error e => rw [hc] at h; cases h
    | ok tree =>
      rw [hc] at h
      dsimp only [canonical] at h ⊢
      cases hm : tree.label.hasError && !tolerant with
      | true => rw [hm, if_pos rfl] at h; cases h
      | false =>
        rw [hm, if_neg Bool.false_ne_true, normalize_none] at h
        cases h
        exact ⟨normalize (tableOf l) (Source.ofText text) tree,
          normalize_polled _ _ tree, by rw [normalize_none], fun dl => ⟨rfl, rfl⟩⟩

end CodeReview.Grammar
