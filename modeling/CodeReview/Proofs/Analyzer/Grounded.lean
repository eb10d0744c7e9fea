import CodeReview.Proofs.Analyzer.Looks
import CodeReview.Proofs.Rule.Overrides
/-!
# Grounded analyzers

An analyzer is grounded if its findings name rules of the rule set it is given.  A finding that is made from a draft does
(`finding_ok`), so the built-in analyzers are grounded (`builtin_grounded`).
-/
namespace CodeReview
namespace Analyzer

open Syntax (Node)

/-- An analyzer all of whose findings name rules of the rule set it is given. -/
def Grounded (x : Analyzer) : Prop :=
  ∀ c root dl fs, (x.analyze c root dl).1 = .ok fs → ∀ f ∈ fs, c.rules.has f.rule.id = true

theorem ref_id {r : Rule} {ref : RuleRef} (h : r.ref = .ok ref) : ref.id = r.id := by
  unfold Rule.ref RuleRef.make at h
  split at h
  · cases h
  · cases h
    rfl

/-- **A finding is by an enabled rule of its group**, and refers to it. -/
theorem finding_inv {c : Context} {group : String} {d : Draft} {f : Finding} (h : c.finding group d = .ok f) :
    ∃ r, c.rules.enabledIn? group d.rule = some r ∧ r.ref = .ok f.rule := by
  unfold Context.finding at h
  split at h
  · cases h
  rename_i r hr
  split at h
  · cases h
  rename_i ref href
  cases h
  exact ⟨r, hr, href⟩

theorem find?_of_enabledIn {s : RuleSet} {group id : String} {r : Rule} (h : s.enabledIn? group id = some r) :
    s.find? id = some r :=
  (Option.filter_eq_some_iff.1 h).1

theorem finding_rule {c : Context} {group : String} {d : Draft} {f : Finding} (h : c.finding group d = .ok f) :
    f.rule.id = d.rule := by
  obtain ⟨r, hr, href⟩ := finding_inv h
  rw [ref_id href, RuleSet.find?_id (find?_of_enabledIn hr)]

/-- **A finding of a draft names a rule of the rule set.** -/
theorem finding_ok {c : Context} {group : String} {d : Draft} {f : Finding} (h : c.finding group d = .ok f) :
    c.rules.has f.rule.id = true := by
  obtain ⟨r, hr, href⟩ := finding_inv h
  rw [ref_id href, RuleSet.has, List.any_eq_true]
  exact ⟨r, List.mem_of_find?_eq_some (find?_of_enabledIn hr), beq_self_eq_true r.id⟩

theorem findings_ok {c : Context} {group : String} {ds : List Draft} {fs : List Finding}
    (h : c.findings group ds = .ok fs) : ∀ f ∈ fs, c.rules.has f.rule.id = true := fun f hf => by
  obtain ⟨d, -, hd⟩ := (findings_spec c group ds).1 fs h f hf
  exact finding_ok hd

theorem ofDrafts_grounded (name : String) (languages : Option (List String)) (drafts : RuleSet → Node → List Draft) :
    (ofDrafts name languages drafts).Grounded := fun c root dl fs h f hf => by
  obtain ⟨v, -, new, hnew, hmem⟩ := Syntax.Walk.collect_mem h f hf
  exact findings_ok hnew f hmem

theorem complexity_grounded : complexity.Grounded := fun c root dl fs h => by
  cases hr : c.rules.isEnabled Complexity.rule with
  | false =>
    rw [complexity_of_disabled hr] at h
    cases h
    exact fun f hf => by cases hf
  | true =>
    rw [complexity_of_enabled hr] at h
    dsimp only at h
    cases hn : (Syntax.cyclomaticComplexity root dl).1 with
    | error e => rw [hn] at h; cases h
    | ok n =>
      rw [hn] at h
      exact findings_ok h

/-- **The built-in analyzers are grounded.** -/
theorem builtin_grounded : ∀ x ∈ Registry.builtin.analyzers, x.Grounded := by
  simp only [Registry.builtin, Registry.builtinAnalyzers, List.forall_mem_cons, List.not_mem_nil, false_implies,
    implies_true, and_true]
  exact ⟨complexity_grounded, ofDrafts_grounded _ _ _, ofDrafts_grounded _ _ _, ofDrafts_grounded _ _ _⟩

end Analyzer
end CodeReview
