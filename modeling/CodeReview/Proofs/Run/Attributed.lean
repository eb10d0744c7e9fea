import CodeReview.Proofs.Analyzer.Attributed
import CodeReview.Proofs.Run.Shapes
import CodeReview.Proofs.Run.Toggled
/-!
# Files and their rules

With the built-in rules, under any overrides, no built-in analyzer fails but for a lack of time, so the passes over a tree
leave no errors (`passed_errors`, `fileOf_errors`).  The findings of a file are those of its analyzers, or one under the
rule of files without a tree, which no override reaches; so each is about an enabled rule (`found_about`).
-/
namespace CodeReview.Run

open Analyzer (Attributed YieldsAttributed builtinYields checkedPasses)
open Grammar (Session)
open Syntax (Deadline InRange KeepsBudget)

/-- That a finding is about an enabled rule of a rule set, and says of it what the set does. -/
structure About (R : RuleSet) (f : Finding) (r : Rule) : Prop where
  found : R.find? f.rule.id = some r
  enabled : r.enabled = true
  category : f.category = r.category
  ref : r.ref = .ok f.rule

namespace FileAnalyzer

variable {a : FileAnalyzer} {c : Context} {root : Syntax.Node} {dl : Option Deadline}

/-! ## Errors -/

/-- Analyzers that within a time budget in range fail by timeouts only, and leave it in range. -/
def FailsInTime (c : Context) (root : Syntax.Node) (x : Analyzer) : Prop :=
  KeepsBudget (x.analyze c root) ∧
    ∀ dl e, InRange dl → (x.analyze c root dl).1 = .error e → e.isTimeout = true

/-- **Analyzers that fail by timeouts only leave no errors.** -/
theorem passed_errors {xs : List Analyzer} {dl' : Option Deadline} {fs : List Finding} {es : List RunError}
    (h : Passed c root xs dl fs es dl') (hxs : ∀ x ∈ xs, FailsInTime c root x) (hdl : InRange dl) : es = [] := by
  induction h with
  | nil => rfl
  | cons hx _ ih =>
    have hone := hxs _ List.mem_cons_self
    rw [ih (fun y hy => hxs y (List.mem_cons_of_mem _ hy)) (hx.inRange hone.1 hdl), List.append_nil]
    cases hx with
    | passedOver => rfl
    | finds => rfl
    | failed _ hr hno =>
      rw [hone.2 _ _ hdl (congrArg Prod.fst hr)] at hno
      cases hno

theorem failsInTime_of_fits (hfits : ∀ p ∈ checkedPasses, p.Fits c.rules) {x : Analyzer}
    (hx : x ∈ Registry.builtin.analyzers) : FailsInTime c root x := by
  refine ⟨(Analyzer.builtin_timely x hx c root).keepsBudget, fun dl e hdl h => ?_⟩
  obtain ⟨d, rfl, rfl⟩ := Analyzer.analyze_fails hfits hx h
  rw [Syntax.spentFailure_eq, if_pos (hdl d rfl)]
  rfl

theorem fileOf_errors {path language : String} {lines : Nat} {m : Syntax.Metrics} {q : Passes}
    (hfits : ∀ p ∈ checkedPasses, p.Fits a.rules) (hb : a.registry = .builtin) (hc : a.collect = Syntax.collectMetrics)
    (hdl : InRange dl) (h : (a.fileOf path language lines root dl).1 = .ok (m, q)) : q.errors = [] := by
  obtain ⟨es, dl', hpassed, hmetrics⟩ := (fileOf_cases path language lines).2 m q h
  have hintime : ∀ x ∈ a.registry.analyzers, FailsInTime ⟨path, language, a.rules⟩ root x := by
    rw [hb]
    exact fun x hx => failsInTime_of_fits hfits hx
  have hleft : InRange dl' := hpassed.inRange (fun x hx => (hintime x hx).1) hdl
  rcases hmetrics with ⟨hq, -⟩ | ⟨e, he, hno, -, -⟩
  · rw [hq, passed_errors hpassed hintime hdl]
  · rw [hc] at he
    rcases collectMetrics_cases root lines hleft with ⟨b, hb⟩ | ⟨m', hm', -⟩
    · rw [hb] at he
      cases he
      cases hno
    · rw [hm'] at he
      cases he

/-! ## Findings -/

theorem unparsed_about (hr : a.rules.find? parseErrorId = some parseErrorRule) (path message : String) (timedOut : Bool) :
    About a.rules (a.unparsedFinding path message timedOut) parseErrorRule := by
  have hrule : a.unparsedRule = parseErrorRule := by
    rw [unparsedRule, hr]
    rfl
  refine ⟨hr, rfl, ?_, ?_⟩
  · rw [unparsedFinding, hrule]
  · simp only [unparsedFinding, hrule]
    rfl

/-- **What built-in analyzers find is about enabled rules.** -/
theorem found_about {session : Session} {path text language : String} {fs : List Finding}
    (hr : a.rules.find? parseErrorId = some parseErrorRule) (hb : a.registry = .builtin)
    (h : Found a session path text language dl fs) : ∀ f ∈ fs, ∃ r, About a.rules f r := by
  refine h.forall_findings (fun message timedOut => ⟨_, unparsed_about hr path message timedOut⟩) ?_
  intro root _ x hx dl gs hgs f hf
  rw [hb] at hx
  obtain ⟨r, hr⟩ := Analyzer.builtin_attributed hx hgs f hf
  exact ⟨r, hr.found, hr.enabled, hr.category, hr.ref⟩

theorem finish_about {path : String} {fs : List Finding} {R : RuleSet} (h : ∀ f ∈ fs, ∃ r, About R f r) :
    ∀ f ∈ a.finish path fs, ∃ r, About R f r := by
  intro f hf
  obtain ⟨g, hg, n, rfl⟩ := exists_of_mem_finish hf
  obtain ⟨r, hr⟩ := h g hg
  exact ⟨r, hr.found, hr.enabled, hr.category, hr.ref⟩

/-- **A file analyzed by the built-in analyzers with rules that fit** has findings about enabled rules, and no errors of
analyzers. -/
theorem analyze_about (hr : a.rules.find? parseErrorId = some parseErrorRule)
    (hfits : ∀ p ∈ checkedPasses, p.Fits a.rules) (hb : a.registry = .builtin) (hc : a.collect = Syntax.collectMetrics)
    (ht : a.BudgetFits) (hp : ∀ session path text language, KeepsBudget (a.parse session path text language))
    (session : Session) (path text : String) (given : Option String) :
    ∃ r, a.analyze session path text given = .ok r ∧ (∀ f ∈ r.result.findings, ∃ rule, About a.rules f rule) ∧
      (∀ e ∈ r.result.errors, e.component = "engine") ∧ (r.result.parsed = true → r.result.errors = []) := by
  cases hl : languageOf path given with
  | none =>
    refine ⟨_, by rw [analyze, hl], ?_, ?_, fun _ => rfl⟩
    · exact fun f hf => (by cases hf)
    · exact fun e he => (by cases he)
  | some language =>
    obtain ⟨dl, hbudget, hdl⟩ := budget_of_fits ht
    refine ⟨_, analyze_of_budget hl hbudget session text, ?_, ?_⟩
    · obtain ⟨fs, hfs, -, hreport⟩ := analyzeWithin_found (a := a) session path text language dl
      rw [hreport]
      exact finish_about (found_about hr hb hfs)
    · have hleft : InRange (a.parse session path text language dl).2 := (hp session path text language).inRange hdl
      rcases analyzeWithin_ends (a := a) session path text language dl with
        ⟨message, timedOut, -, hundone⟩ | ⟨root, m, q, -, hfile, hdone⟩
      · rw [hundone]
        exact ⟨unparsed_errors path language _ message timedOut, fun h => (by cases h)⟩
      · have hnone : (a.report path language (Text.countLines text) (.ok (m, q))).errors = [] :=
          fileOf_errors hfits hb hc hleft hfile
        rw [hdone, hnone]
        exact ⟨fun e he => (by cases he), fun _ => rfl⟩

end FileAnalyzer

/-- **Findings agree with the rules that have made them.**  Whatever the rule set, all that a built-in analyzer yields, also
where it fails in the end, is about an enabled rule of its group, says of it what the set does, and is open and in the file
of its context.

With the built-in rules under any chain of overrides no built-in analyzer fails on any tree but where its time budget is
spent.  So the result of a file has no error of an analyzer, and each of its findings is about an enabled rule. -/
theorem findings_agree_with_rules :
    builtinYields.map (·.1) = Registry.builtin.analyzers ∧
    (∀ x ∈ builtinYields, YieldsAttributed x.1 x.2) ∧
    ∀ (chain : List (Entries Value)) (R : RuleSet), chain.foldlM RuleSet.withOverrides .builtin = .ok R →
      (∀ x ∈ Registry.builtin.analyzers, ∀ path language root dl e,
        (x.analyze ⟨path, language, R⟩ root dl).1 = .error e →
          ∃ d, dl = some d ∧ e = Syntax.spentFailure d.budget) ∧
      ∀ a : FileAnalyzer, a.BudgetFits →
        (∀ session path text language, KeepsBudget (a.parse session path text language)) →
        ∀ session path text given,
          ∃ r, ({ a with rules := R, registry := .builtin, collect := Syntax.collectMetrics } : FileAnalyzer).analyze
              session path text given = .ok r ∧
            (∀ f ∈ r.result.findings, ∃ rule, About R f rule) ∧
            (∀ e ∈ r.result.errors, e.component = "engine" ∧ e.component ∉ Registry.builtin.names) ∧
            (r.result.parsed = true → r.result.errors = []) := by
  refine ⟨Analyzer.builtinYields_map_fst, Analyzer.yields_attributed, fun chain R hchain => ?_⟩
  have hR : RuleSet.builtin.withOverrides chain.flatten = .ok R := by rw [← RuleSet.withOverrides_flatten, hchain]
  have hfits : ∀ p ∈ checkedPasses, p.Fits R := Analyzer.fits_of_overrides hR
  have hengine : R.find? parseErrorId = some parseErrorRule := RuleSet.withOverrides_engine hR rfl rfl
  refine ⟨fun x hx path language root dl e h => Analyzer.analyze_fails hfits hx h, ?_⟩
  intro a ht hp session path text given
  obtain ⟨r, hr, hfindings, herrors, hparsed⟩ :=
    FileAnalyzer.analyze_about (a := { a with rules := R, registry := .builtin, collect := Syntax.collectMetrics })
      hengine hfits rfl rfl ⟨ht.timeout, ht.clock⟩ hp session path text given
  refine ⟨r, hr, hfindings, fun e he => ⟨herrors e he, ?_⟩, hparsed⟩
  rw [herrors e he]
  decide

/-- Rules of which a chain of overrides has disabled a group and enabled one rule of it again, which is reported. -/
theorem eval_reports_again : ∃ R : RuleSet,
    [[("security", Value.bool false)], [("no-eval", Value.bool true)]].foldlM RuleSet.withOverrides .builtin = .ok R ∧
    R.isEnabled "no-eval" = true ∧ R.isEnabled "no-innerHTML" = false ∧
    ∃ r, ({ FileAnalyzer.evalFile with rules := R } : FileAnalyzer).analyze {} "a.js" "eval('1')" none = .ok r ∧
      r.result.findings.map (·.rule.id) = ["no-eval"] ∧ r.result.errors = [] ∧
      ∀ f ∈ r.result.findings, ∃ rule, About R f rule := by
  have hsome : ∃ R : RuleSet,
      [[("security", Value.bool false)], [("no-eval", Value.bool true)]].foldlM RuleSet.withOverrides .builtin = .ok R ∧
      R.isEnabled "no-eval" = true ∧ R.isEnabled "no-innerHTML" = false ∧
      ((({ FileAnalyzer.evalFile with rules := R } : FileAnalyzer).analyze {} "a.js" "eval('1')" none).toOption.map fun r =>
        (r.result.findings.map (·.rule.id), r.result.parsed)) = some (["no-eval"], true) :=
    ⟨_, rfl, by decide, by decide, by decide +kernel⟩
  obtain ⟨R, hchain, heval, hinner, hrun⟩ := hsome
  have hfits : FileAnalyzer.evalFile.BudgetFits := ⟨fun _ ht => (by cases ht), by decide +kernel⟩
  obtain ⟨r, hr, hfindings, -, herrors⟩ := (findings_agree_with_rules.2.2 _ R hchain).2 _ hfits
    (fun _ _ _ _ _ _ => rfl) {} "a.js" "eval('1')" none
  have hr' : ({ FileAnalyzer.evalFile with rules := R } : FileAnalyzer).analyze {} "a.js" "eval('1')" none = .ok r := hr
  rw [hr'] at hrun
  obtain ⟨hids, hparsed⟩ := Prod.mk.inj (Option.some.inj hrun)
  exact ⟨R, hchain, heval, hinner, r, hr, hids, herrors hparsed, hfindings⟩

end CodeReview.Run
