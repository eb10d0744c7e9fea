import CodeReview.Proofs.Analyzer.Checks
import Mathlib.Data.List.Basic
/-!
# Rule sets that fit

A rule set fits an analyzer if it has the rules of its checks in the group of the analyzer (`Pass.Fits`).  The built-in
rules do, whatever the overrides (`fits_of_overrides`).  Then every draft makes a finding (`Pass.findings_total`), and an
analyzer that does not apply to a language it is for has nothing to say (`Pass.drafts_of_not_applies`).

Without some of the rules the checks say the same but for what they say under these rules (`Pass.drafts_without`), and the
drafts that are left make the same findings (`findings_without`).
-/
namespace CodeReview
namespace Analyzer

open Syntax (Node)

/-- Whether a rule set has the rules of a pass in the group of its analyzer. -/
def Pass.Fits (p : Pass) (R : RuleSet) : Prop :=
  ∀ k ∈ p.checks, ∃ r, R.find? k.rule = some r ∧ r.analyzer = p.analyzer.name ∧ r.id ≠ ""

theorem builtin_fits : ∀ p ∈ checkedPasses, p.Fits .builtin := by
  have hall : ∀ p ∈ checkedPasses, ∀ k ∈ p.checks,
      ((RuleSet.builtin.find? k.rule).any fun r => r.analyzer == p.analyzer.name && r.id != "") = true := by
    decide +kernel
  intro p hp k hk
  have hk := hall p hp k hk
  cases hr : RuleSet.builtin.find? k.rule with
  | none => rw [hr] at hk; cases hk
  | some r =>
    rw [hr, Option.any_some, Bool.and_eq_true_iff, beq_iff_eq, bne_iff_ne] at hk
    exact ⟨r, rfl, hk.1, hk.2⟩

/-- **The built-in rules fit the built-in analyzers**, whatever the overrides. -/
theorem fits_of_overrides {es : Entries Value} {R : RuleSet} (h : RuleSet.builtin.withOverrides es = .ok R) :
    ∀ p ∈ checkedPasses, p.Fits R := by
  intro p hp k hk
  obtain ⟨b, hb, hgroup, hid⟩ := builtin_fits p hp k hk
  obtain ⟨r, hr, hbare⟩ := RuleSet.find?_of_bare (RuleSet.withOverrides_bare h) hb
  have hanalyzer : r.bare.analyzer = b.bare.analyzer := by rw [hbare]
  have hsame : r.bare.id = b.bare.id := by rw [hbare]
  exact ⟨r, hr, hanalyzer.trans hgroup, fun h => hid (hsame.symm.trans h)⟩

theorem fits_of_chain {chain : List (Entries Value)} {R : RuleSet} (h : chain.foldlM RuleSet.withOverrides .builtin = .ok R) :
    ∀ p ∈ checkedPasses, p.Fits R := by
  rw [RuleSet.withOverrides_flatten] at h
  exact fits_of_overrides h

namespace Pass

variable {p : Pass} {c : Context}

theorem Fits.without {R : RuleSet} (h : p.Fits R) (q : Rule → Bool) : p.Fits (R.without q) := by
  intro k hk
  obtain ⟨r, hr, hgroup, hid⟩ := h k hk
  have hoff : (RuleSet.offIf q r).analyzer = r.analyzer ∧ (RuleSet.offIf q r).id = r.id := by
    unfold RuleSet.offIf
    split <;> exact ⟨rfl, rfl⟩
  refine ⟨RuleSet.offIf q r, ?_, hoff.1.trans hgroup, ?_⟩
  · rw [RuleSet.find?_without, hr, Option.map_some]
  · rw [hoff.2]
    exact hid

theorem Fits.enabledIn? {R : RuleSet} (h : p.Fits R) {k : Check} (hk : k ∈ p.checks) (hon : R.isEnabled k.rule = true) :
    (R.enabledIn? p.analyzer.name k.rule).isSome = true := by
  obtain ⟨r, hr, hgroup, -⟩ := h k hk
  have henabled : r.enabled = true := by rwa [RuleSet.isEnabled, hr] at hon
  rw [RuleSet.enabledIn?, hr, Option.filter_some, henabled, hgroup, beq_self_eq_true]
  rfl

def drafts (p : Pass) (R : RuleSet) (root : Node) : List Draft :=
  (p.nodes root).flatMap fun n => p.checks.flatMap fun k => k.drafts R n

theorem drafts_enabled (hp : p.Fits c.rules) {root : Node} {d : Draft} (hd : d ∈ p.drafts c.rules root) :
    ∃ r ∈ c.rules.rules, c.rules.enabledIn? p.analyzer.name d.rule = some r ∧ r.enabled = true ∧
      r.analyzer = p.analyzer.name ∧ r.id ≠ "" := by
  obtain ⟨n, -, hd⟩ := List.mem_flatMap.1 hd
  obtain ⟨k, hk, hd⟩ := List.mem_flatMap.1 hd
  obtain ⟨hrule, henabled⟩ := Check.drafts_rule hd
  obtain ⟨r, hr, hgroup, hid⟩ := hp k hk
  rw [RuleSet.isEnabled, hr] at henabled
  dsimp only at henabled
  refine ⟨r, List.mem_of_find?_eq_some hr, ?_, henabled, hgroup, hid⟩
  rw [RuleSet.enabledIn?, hrule, hr, Option.filter_some, henabled, hgroup, beq_self_eq_true]
  rfl

/-- An analyzer that does not apply would have nothing to say, but for the language. -/
theorem drafts_of_not_applies (hp : p.Fits c.rules) (hspeaks : p.analyzer.speaks c.language = true)
    (h : p.analyzer.applies c = false) (root : Node) : p.drafts c.rules root = [] := by
  rw [List.eq_nil_iff_forall_not_mem]
  intro d hd
  obtain ⟨r, hmem, -, henabled, hgroup, -⟩ := drafts_enabled hp hd
  have hany : (c.rules.ofAnalyzer p.analyzer.name).any (·.enabled) = true :=
    List.any_eq_true.2 ⟨r, List.mem_filter.2 ⟨hmem, by simp [hgroup]⟩, henabled⟩
  rw [Analyzer.applies, hspeaks, hany] at h
  cases h

/-- **Every draft makes a finding** where the rules fit. -/
theorem findings_total (hp : p.Fits c.rules) (root : Node) :
    ∃ fs, c.findings p.analyzer.name (p.drafts c.rules root) = .ok fs := by
  cases hfs : c.findings p.analyzer.name (p.drafts c.rules root) with
  | ok fs => exact ⟨fs, rfl⟩
  | error e =>
    obtain ⟨d, hd, herror⟩ := (findings_spec c _ _).2 e hfs
    obtain ⟨r, -, hr, -, -, hid⟩ := drafts_enabled hp hd
    have href : r.ref = .ok ⟨r.id, r.name, r.category, r.documentation, hid⟩ := dif_neg hid
    rw [Context.finding, hr] at herror
    dsimp only at herror
    rw [href] at herror
    cases herror

theorem drafts_without (p : Pass) (R : RuleSet) (q : Rule → Bool) (root : Node) :
    p.drafts (R.without q) root = (p.drafts R root).filter fun d => !R.names q d.rule := by
  rw [drafts, drafts, List.filter_flatMap]
  refine List.flatMap_congr fun n _ => ?_
  rw [List.filter_flatMap]
  exact List.flatMap_congr fun k _ => k.drafts_without R q n

end Pass

/-! ## Findings without some rules -/

section

variable {c : Context} {group : String} (q : Rule → Bool)

theorem finding_without {d : Draft} (h : c.rules.names q d.rule = false) :
    ({ c with rules := c.rules.without q } : Context).finding group d = c.finding group d := by
  have hrule : (c.rules.without q).enabledIn? group d.rule = c.rules.enabledIn? group d.rule := by
    rw [RuleSet.enabledIn?, RuleSet.enabledIn?, RuleSet.find?_without_of_not_names h]
  rw [Context.finding, Context.finding, hrule]

/-- **Without some rules the drafts of the others make the findings that they make otherwise.** -/
theorem findings_without : ∀ (ds : List Draft) (fs : List Finding), c.findings group ds = .ok fs →
    ({ c with rules := c.rules.without q } : Context).findings group (ds.filter fun d => !c.rules.names q d.rule) =
      .ok (fs.filter fun f => !c.rules.names q f.rule.id)
  | [], fs, h => by
    cases h
    rfl
  | d :: ds, fs, h => by
    rw [findings_cons] at h
    cases hd : c.finding group d with
    | error e => rw [hd] at h; cases h
    | ok f =>
      cases hds : c.findings group ds with
      | error e => rw [hd, hds] at h; cases h
      | ok gs =>
        rw [hd, hds] at h
        cases h
        have ih := findings_without ds gs hds
        rw [List.filter_cons, List.filter_cons, finding_rule hd]
        cases hq : c.rules.names q d.rule with
        | true => exact ih
        | false =>
          rw [Bool.not_false, if_pos rfl, if_pos rfl, findings_cons, finding_without q hq, hd, ih]
          rfl

end

end Analyzer
end CodeReview
