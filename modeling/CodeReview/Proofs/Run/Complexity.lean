import CodeReview.Proofs.Run.Isolated
import CodeReview.Proofs.Run.Shapes
import CodeReview.Proofs.Syntax.Counts
/-!
# The complexity of files

Complexity is counted twice, by the analyzer that reports it and with the other metrics, and both counts agree.  So a file
has a finding of complexity if and only if its metrics are above the threshold, which comes before all others and quotes the
metrics (`complexity_agrees`).
-/
namespace CodeReview

def Course.ofOutcome : Except Failure (List Finding) → Course
  | .ok fs => ⟨fs, none⟩
  | .error why => ⟨[], some why⟩

theorem Course.ofOutcome_outcome (out : Except Failure (List Finding)) : (Course.ofOutcome out).outcome = out := by
  cases out <;> rfl

structure TellsComplexity (f : Finding) (path : String) (complexity threshold : Int) : Prop where
  rule : f.rule.id = "complexity"
  location : f.location = { path, line := 1, column := 1 }
  title : f.title = "High Cyclomatic Complexity (" ++ toString complexity ++ ")"
  description : f.description = "This file has a cyclomatic complexity of " ++ toString complexity ++
    ", which exceeds the recommended threshold of " ++ toString threshold ++ "."
  severity : f.severity = if 20 < complexity then .high else .medium

namespace Analyzer

open Number (Quantity)
open Syntax (Node)

def course (c : Context) (root : Node) (x : Analyzer) : Course := .ofOutcome (x.analyze c root none).1

/-- A built-in analyzer takes the course that it takes without a time budget. -/
theorem builtin_takes {x : Analyzer} (hx : x ∈ Registry.builtin.analyzers) (c : Context) (root : Node)
    {budget : Option Quantity} (hb : ∀ b ∈ budget, b.toFloat?.isSome = true) : x.Takes c root budget (course c root x) where
  comes := by
    rw [course, Course.ofOutcome_outcome]
    exact (builtin_sameOrSpent c root x hx).comesTo (builtin_timely x hx c root).keepsBudget hb
  untimed why hwhy := by
    obtain ⟨y, hy, rfl⟩ := List.mem_map.1 (show x ∈ builtinPasses.map (·.1) from hx)
    cases h : (y.1.analyze c root none).1 with
    | ok fs => rw [course, h] at hwhy; cases hwhy
    | error e =>
      rw [course, h] at hwhy
      cases hwhy
      exact builtin_untimed y hy c root why h

variable {c : Context} {rule : Rule} (hr : c.rules.find? "complexity" = some rule) (henabled : rule.enabled = true)
  (hgroup : rule.analyzer = "complexity")

include hr henabled hgroup

theorem complexity_applies : complexity.applies c = true := by
  have hmem : rule ∈ c.rules.ofAnalyzer complexity.name :=
    List.mem_filter.2 ⟨List.mem_of_find?_eq_some hr, beq_iff_eq.2 hgroup⟩
  exact Bool.and_eq_true_iff.2 ⟨rfl, List.any_eq_true.2 ⟨rule, hmem, henabled⟩⟩

theorem complexity_finding (k : Nat) (t : Int) :
    ∃ f, c.finding Complexity.rule (Complexity.draft k t) = .ok f ∧ TellsComplexity f c.path k t := by
  have hid : rule.id = "complexity" := RuleSet.find?_id hr
  have hne : rule.id ≠ "" := by rw [hid]; decide
  have hfits : c.rules.enabledIn? Complexity.rule (Complexity.draft k t).rule = some rule :=
    Option.filter_eq_some_iff.2 ⟨hr, Bool.and_eq_true_iff.2 ⟨henabled, beq_iff_eq.2 hgroup⟩⟩
  have href : rule.ref = .ok ⟨rule.id, rule.name, rule.category, rule.documentation, hne⟩ := dif_neg hne
  rw [Context.finding, hfits]
  dsimp only
  rw [href]
  exact ⟨_, rfl, hid, rfl, rfl, rfl, rfl⟩

/-- **The complexity analyzer tells of a complexity above the threshold**, and of nothing else. -/
theorem complexity_none (root : Node) {k : Nat} (hk : Syntax.cyclomaticComplexity root none = (.ok k, none)) :
    ∃ fs, (complexity.analyze c root none).1 = .ok fs ∧ ((k : Int) ≤ rule.threshold.getD 10 → fs = []) ∧
      (rule.threshold.getD 10 < k → ∃ f, fs = [f] ∧ TellsComplexity f c.path k (rule.threshold.getD 10)) := by
  have hfound : c.rules.find? Complexity.rule = some rule := hr
  have hon : c.rules.isEnabled Complexity.rule = true := by rw [RuleSet.isEnabled, hfound]; exact henabled
  have ht : c.rules.threshold Complexity.rule Complexity.defaultThreshold = rule.threshold.getD 10 := by
    rw [RuleSet.threshold, hfound]
    rfl
  have hdrafts : (complexity.analyze c root none).1 = c.findings Complexity.rule
      (if (k : Int) ≤ rule.threshold.getD 10 then [] else [Complexity.draft k (rule.threshold.getD 10)]) := by
    rw [complexity_of_enabled hon, ← ht]
    dsimp only
    rw [hk]
    rfl
  rw [hdrafts]
  by_cases hle : (k : Int) ≤ rule.threshold.getD 10
  · rw [if_pos hle]
    exact ⟨[], rfl, fun _ => rfl, fun h => absurd hle (not_le.2 h)⟩
  · obtain ⟨f, hf, htells⟩ := complexity_finding hr henabled hgroup k (rule.threshold.getD 10)
    rw [if_neg hle, findings_cons, hf]
    exact ⟨[f], rfl, fun h => absurd h hle, fun _ => ⟨f, rfl, htells⟩⟩

end Analyzer

namespace Run
namespace FileAnalyzer

open Analyzer (checkedPasses)
open Grammar (Session)
open Syntax (Deadline InRange KeepsBudget Metrics)

theorem rule_ne_complexity {x : Analyzer} (hx : x ∈ [Analyzer.security, Analyzer.performance, Analyzer.bugs]) {c : Context}
    {root : Syntax.Node} {dl : Option Deadline} {fs : List Finding} (h : (x.analyze c root dl).1 = .ok fs) :
    ∀ f ∈ fs, f.rule.id ≠ "complexity" := by
  obtain ⟨p, hp, rfl⟩ := List.mem_map.1 (show x ∈ checkedPasses.tail.map (·.analyzer) from hx)
  have hall : ∀ p ∈ checkedPasses.tail, ∀ k ∈ p.checks, k.rule ≠ "complexity" := by
    simp only [checkedPasses, List.tail_cons, List.forall_mem_cons, List.not_mem_nil, false_implies, implies_true, and_true]
    decide
  exact Analyzer.Pass.spares (hall p hp) h

/-- What the findings of a file say of its complexity: one finding, before all others, if it is above the threshold. -/
structure TellsOnce (fs : List Finding) (path : String) (complexity threshold : Int) : Prop where
  above : threshold < complexity →
    ∃ f rest, fs = f :: rest ∧ TellsComplexity f path complexity threshold ∧ ∀ g ∈ rest, g.rule.id ≠ "complexity"
  below : complexity ≤ threshold → ∀ f ∈ fs, f.rule.id ≠ "complexity"

theorem TellsOnce.number {fs : List Finding} {path : String} {k t : Int} (h : TellsOnce fs path k t) :
    TellsOnce (number path fs) path k t := by
  have hrule : ∀ gs : List Finding, (∀ g ∈ gs, g.rule.id ≠ "complexity") → ∀ i,
      ∀ g ∈ (gs.zipIdx i).map (fun g => g.1.withId (numberedId path g.1 g.2)), g.rule.id ≠ "complexity" := by
    intro gs hgs i g hg
    obtain ⟨⟨g, n⟩, hmem, rfl⟩ := List.mem_map.1 hg
    exact hgs g (List.fst_mem_of_mem_zipIdx hmem)
  refine ⟨fun habove => ?_, fun hbelow => hrule fs (h.below hbelow) 1⟩
  obtain ⟨f, rest, rfl, htells, hrest⟩ := h.above habove
  exact ⟨_, _, rfl, ⟨htells.rule, htells.location, htells.title, htells.description, htells.severity⟩, hrule rest hrest 2⟩

section

variable {a : FileAnalyzer} {rule : Rule} (hr : a.rules.find? "complexity" = some rule) (henabled : rule.enabled = true)
  (hgroup : rule.analyzer = "complexity")

include hr henabled hgroup

/-- **The analyzers of a file tell of its complexity once**, and of that first. -/
theorem outputs_tell (path language : String) (root : Syntax.Node) {k : Nat}
    (hk : Syntax.cyclomaticComplexity root none = (.ok k, none)) :
    TellsOnce (outputs ⟨path, language, a.rules⟩ (Analyzer.course ⟨path, language, a.rules⟩ root)
      Registry.builtin.analyzers) path k (rule.threshold.getD 10) := by
  obtain ⟨fs, hfs, hbelow, habove⟩ :=
    Analyzer.complexity_none (c := ⟨path, language, a.rules⟩) hr henabled hgroup root hk
  have happlies : Analyzer.complexity.applies ⟨path, language, a.rules⟩ = true :=
    Analyzer.complexity_applies hr henabled hgroup
  -- the analyzer of the rule is the first of the registry, and no other has a check under the rule
  rw [show Registry.builtin.analyzers =
    Analyzer.complexity :: [Analyzer.security, Analyzer.performance, Analyzer.bugs] from rfl, outputs_cons]
  have hfirst : outputs ⟨path, language, a.rules⟩ (Analyzer.course ⟨path, language, a.rules⟩ root) [Analyzer.complexity] =
      fs := by
    simp [outputs, happlies, Analyzer.course, hfs, Course.ofOutcome]
  have hothers : ∀ f ∈ outputs ⟨path, language, a.rules⟩ (Analyzer.course ⟨path, language, a.rules⟩ root)
      [Analyzer.security, Analyzer.performance, Analyzer.bugs], f.rule.id ≠ "complexity" := by
    intro f hf
    obtain ⟨x, hx, hf⟩ := List.mem_flatMap.1 hf
    cases hout : (x.analyze ⟨path, language, a.rules⟩ root none).1 with
    | error why => rw [Analyzer.course, hout] at hf; cases hf
    | ok gs =>
      rw [Analyzer.course, hout] at hf
      exact rule_ne_complexity (List.mem_of_mem_filter hx) hout f hf
  rw [hfirst]
  refine ⟨fun h => ?_, fun h => ?_⟩
  · obtain ⟨f, rfl, htells⟩ := habove h
    exact ⟨f, _, rfl, htells, hothers⟩
  · rw [hbelow h]
    exact hothers

/-- What the result of a file says of its complexity, with a tree or without one. -/
inductive Tells (a : FileAnalyzer) (session : Session) (path text language : String) (dl : Option Deadline) (t : Int)
    (r : FileResult) : Prop
  | untold : r.parsed = false → r.metrics.complexity = 0 → (∀ f ∈ r.findings, f.rule.id ≠ "complexity") →
    Tells a session path text language dl t r
  | told {root : Syntax.Node} {k : Nat} : (a.parse session path text language dl).1.outcome = .ok root →
    r.parsed = true → Syntax.cyclomaticComplexity root none = (.ok k, none) → r.metrics.complexity = k →
    TellsOnce r.findings path k t → Tells a session path text language dl t r

omit hr henabled hgroup in
theorem tells_unparsed (session : Session) (path text language : String) (dl : Option Deadline) (t : Int) (lines : Nat)
    (message : String) (timedOut : Bool) :
    Tells a session path text language dl t (a.unparsed path language lines message timedOut) := by
  refine .untold rfl rfl fun f hf => ?_
  rw [unparsed_findings] at hf
  rw [List.mem_singleton.1 hf]
  show parseErrorId ≠ "complexity"
  decide

/-- **The result of a file tells of the complexity that it measures.** -/
theorem analyzeWithin_tells (hc : a.collect = Syntax.collectMetrics) (hb : a.registry = .builtin) (hm : a.minSeverity = .low)
    {dl : Option Deadline} (ht : InRange dl) {session : Session} {path text language : String}
    (hp : KeepsBudget (a.parse session path text language)) :
    Tells a session path text language dl (rule.threshold.getD 10)
      (a.analyzeWithin session path text language dl).result := by
  cases ho : (a.parse session path text language dl).1.outcome with
  | error e =>
    rw [analyzeWithin_result, ho]
    dsimp only
    rw [parseFailed_eq]
    exact tells_unparsed ..
  | ok root =>
    have htakes : ∀ x ∈ a.registry.analyzers, x.applies ⟨path, language, a.rules⟩ = true →
        x.Takes ⟨path, language, a.rules⟩ root (dl.map (·.budget)) (Analyzer.course ⟨path, language, a.rules⟩ root x) :=
      fun x hx _ => Analyzer.builtin_takes (hb ▸ hx) ⟨path, language, a.rules⟩ root ht.budgets
    obtain ⟨q, hfindings, -, hresult⟩ := analyzeWithin_courses hc ht hp ho htakes
    rcases hresult with h | ⟨d, -, h⟩
    · have hk := Syntax.cyclomaticComplexity_none root
      rw [h]
      refine .told ho rfl hk rfl ?_
      rw [hb] at hfindings
      rw [report, hfindings, finish_of_low hm]
      exact (outputs_tell hr henabled hgroup path language root hk).number
    · rw [h]
      exact tells_unparsed ..

end

/-- **The finding of complexity, the metrics and the tree agree.**  On every tree the analyzer and the metrics count the same
complexity: one, and one more for each place of a branch or of a short circuit.  Functions and classes are counted by their
places, and what a node counts for comes on top of its children.  If the rule is enabled, and with the lowest floor, a file
has a finding of complexity exactly if its metrics are above the threshold; it comes before all others and quotes them.  That
holds of all files with a tree, and of those without one if the threshold is not negative. -/
theorem complexity_agrees :
    (∀ (root : Syntax.Node) (lines : Int), ∃ (k : Nat) (m : Metrics) (ms : List Metrics),
      Syntax.cyclomaticComplexity root none = (.ok k, none) ∧ Syntax.collectMetrics root lines none = (.ok m, none) ∧
      m.complexity = k ∧ m.lines = lines ∧ m.CountPlaces root ∧
      List.Forall₂ (fun n m => Syntax.collectMetrics n lines none = (.ok m, none)) root.children ms ∧
      m.AddUp root.label ms) ∧
    ∀ (a : FileAnalyzer) (rule : Rule), a.rules.find? "complexity" = some rule → rule.enabled = true →
      rule.analyzer = "complexity" → a.BudgetFits →
      (∀ session path text language, KeepsBudget (a.parse session path text language)) →
      ∀ (session : Session) (path text : String) (given : Option String), ∃ r,
      ({ a with registry := .builtin, collect := Syntax.collectMetrics, minSeverity := .low } : FileAnalyzer).analyze
        session path text given = .ok r ∧
      let n := r.result.metrics.complexity
      let t := rule.threshold.getD 10
      (r.result.parsed = true → ∃ language dl root k, languageOf path given = some language ∧ a.budget = .ok dl ∧
        (a.parse session path text language dl).1.outcome = .ok root ∧
        Syntax.cyclomaticComplexity root none = (.ok k, none) ∧ n = k) ∧
      (t < n → r.result.parsed = true ∨ 0 ≤ t → ∃ f rest, r.result.findings = f :: rest ∧ TellsComplexity f path n t ∧
        ∀ g ∈ rest, g.rule.id ≠ "complexity") ∧
      (n ≤ t ∨ r.result.parsed = false → ∀ f ∈ r.result.findings, f.rule.id ≠ "complexity") := by
  constructor
  · intro root lines
    refine ⟨_, _, _, Syntax.cyclomaticComplexity_none root, Syntax.collectMetrics_none root lines, ?_, rfl,
      Metrics.counted_places root lines, ?_, Metrics.counted_addUp root lines⟩
    · simp [Metrics.counted]
    · rw [List.forall₂_map_right_iff, List.forall₂_same]
      exact fun n _ => Syntax.collectMetrics_none n lines
  intro a rule hr henabled hgroup ht hp session path text given
  cases hl : languageOf path given with
  | none =>
    refine ⟨_, by rw [analyze, hl], fun h => (by cases h), fun habove h => ?_, fun _ f hf => (by cases hf)⟩
    rcases h with h | h
    · cases h
    · exact absurd h (not_le.2 habove)
  | some language =>
    obtain ⟨dl, hb, hdl⟩ := budget_of_fits ht
    let low : FileAnalyzer := { a with registry := .builtin, collect := Syntax.collectMetrics, minSeverity := .low }
    have htells : Tells low session path text language dl (rule.threshold.getD 10)
        (low.analyzeWithin session path text language dl).result :=
      analyzeWithin_tells (a := low) hr henabled hgroup rfl rfl rfl hdl (hp session path text language)
    refine ⟨_, analyze_of_budget (a := low) hl hb session text, ?_⟩
    cases htells with
    | untold hparsed hzero hnone =>
      refine ⟨fun h => ?_, fun habove h => ?_, fun _ => hnone⟩
      · rw [hparsed] at h
        cases h
      · rw [hparsed, hzero] at *
        rcases h with h | h
        · cases h
        · exact absurd h (not_le.2 habove)
    | told hroot hparsed hk hcomplexity htells =>
      refine ⟨fun _ => ⟨language, dl, _, _, rfl, hb, hroot, hk, hcomplexity⟩, fun habove _ => ?_, fun h => ?_⟩
      · rw [hcomplexity] at habove ⊢
        exact htells.above habove
      · rcases h with h | h
        · rw [hcomplexity] at h
          exact htells.below h
        · rw [hparsed] at h
          cases h

def branchyTree : Syntax.Node := .mk ⟨.whileLoop, "while_statement", 1, 1, 2, 1, none, none, none⟩ none
  [.mk ⟨.conditional, "if_statement", 1, 8, 1, 20, none, none, none⟩ none []]

def strictRules : RuleSet := ⟨[⟨"complexity", "Cyclomatic Complexity", .complexity, "complexity", true, some 1, none, []⟩]⟩

def branchyFile : FileAnalyzer where
  rules := strictRules
  parse := fun session _ _ _ deadline => (⟨.ok branchyTree, session, []⟩, deadline)
  timeout := none

/-- The complexity of the tree is three, and the file has a finding that says so. -/
theorem branchy_told : ∃ r f, branchyFile.analyze {} "a.js" "" none = .ok r ∧ r.result.metrics.complexity = 3 ∧
    r.result.findings = [f] ∧ TellsComplexity f "a.js" 3 1 := by
  have hfits : branchyFile.BudgetFits := ⟨fun t ht => by (cases ht), by decide +kernel⟩
  have hkeeps : ∀ session path text language, KeepsBudget (branchyFile.parse session path text language) :=
    fun _ _ _ _ _ _ => rfl
  obtain ⟨r, hr, -, habove, -⟩ := complexity_agrees.2 branchyFile
    ⟨"complexity", "Cyclomatic Complexity", .complexity, "complexity", true, some 1, none, []⟩ rfl rfl rfl hfits hkeeps
    {} "a.js" "" none
  have hvalues : ((branchyFile.analyze {} "a.js" "" none).toOption.map fun r =>
      (r.result.metrics.complexity, r.result.findings.length)) = some (3, 1) := by decide +kernel
  rw [show branchyFile.analyze {} "a.js" "" none = .ok r from hr] at hvalues
  obtain ⟨hcomplexity, hone⟩ := Prod.mk.inj (Option.some.inj hvalues)
  rw [hcomplexity] at habove
  obtain ⟨f, rest, hfs, htells, -⟩ := habove (by decide) (.inr (by decide))
  rw [hfs, List.length_cons, Nat.add_eq_right, List.length_eq_zero_iff] at hone
  exact ⟨r, f, hr, hcomplexity, hone ▸ hfs, htells⟩

end FileAnalyzer
end Run
end CodeReview
