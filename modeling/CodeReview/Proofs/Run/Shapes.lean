import CodeReview.Proofs.Analyzer.Checks
import CodeReview.Proofs.Run.Produced
import CodeReview.Proofs.Syntax.Counts
/-!
# The shapes of results

The analysis of a file does not fail, whatever its parser does and however its analyzers fail, and its result has one of
three shapes (`analyze_shapes`).  It is empty if the file is in no language that is analyzed.  It tells of a failure if
the file has no tree, or no time (`TellsFailure`); why it does is an `Undone`.  Or it is that of a file with a tree, whose
findings do not tell of a failure (`Completed`).

A time budget has to begin before all that, and only where it does not the analysis fails (`analyze_fails_iff`).  A number
in the range of doubles does begin (`budget_of_fits`); an integer beyond it cannot be added to a reading that is a double.
-/
namespace CodeReview

/-- An analyzer that finds what another one finds unless it fails. -/
structure Analyzer.Follows (x b : Analyzer) : Prop where
  finds : ∀ c root dl fs, (x.analyze c root dl).1 = .ok fs → (b.analyze c root dl).1 = .ok fs
  keeps : ∀ c root, Syntax.KeepsBudget (x.analyze c root)

theorem Analyzer.builtin_spares {b : Analyzer} (hb : b ∈ Registry.builtin.analyzers) {c : Context} {root : Syntax.Node}
    {dl : Option Syntax.Deadline} {fs : List Finding} (h : (b.analyze c root dl).1 = .ok fs) :
    ∀ f ∈ fs, f.rule.id ≠ parseErrorId := by
  rw [← checkedPasses_analyzers] at hb
  obtain ⟨p, hp, rfl⟩ := List.mem_map.1 hb
  have hall : ∀ p ∈ checkedPasses, ∀ k ∈ p.checks, k.rule ≠ parseErrorId := by
    simp only [checkedPasses, List.forall_mem_cons, List.not_mem_nil, false_implies, implies_true, and_true]
    decide
  exact Pass.spares (hall p hp) h

namespace Run
namespace FileAnalyzer

open Grammar (ParseError Session)
open Number (Quantity)
open Syntax (Budgeted Deadline InRange KeepsBudget Metrics)

/-! ## What results say -/

/-- What the result of a file says that tells of a failure, and that it says nothing else. -/
structure TellsFailure (r : FileResult) (path text language message : String) (timedOut : Bool) : Prop where
  path_eq : r.path = path
  language_eq : r.language = some language
  parsed : r.parsed = false
  metrics : r.metrics = ⟨0, Text.countLines text, 0, 0⟩
  findings : ∃ f : Finding, r.findings = [f] ∧ f.rule.id = parseErrorId ∧ f.severity = .high ∧
    f.location = { path, line := 1, column := 1 } ∧ f.description = "Failed to parse file: " ++ message
  errors : r.errors = if timedOut then [{ component := "engine", message, filePath := some path }] else []

/-- What the result of a file with a tree says. -/
structure Completed (r : FileResult) (path text language : String) : Prop where
  path_eq : r.path = path
  language_eq : r.language = some language
  parsed : r.parsed = true
  findings : ∀ f ∈ r.findings, f.rule.id ≠ parseErrorId
  complexity : 1 ≤ r.metrics.complexity
  lines : r.metrics.lines = Text.countLines text

variable {a : FileAnalyzer} {c : Context} {root : Syntax.Node} {dl : Option Deadline}

theorem unparsed_tells (path text language message : String) (timedOut : Bool) :
    TellsFailure (a.unparsed path language (Text.countLines text) message timedOut) path text language message
      timedOut where
  path_eq := rfl
  language_eq := rfl
  parsed := rfl
  metrics := rfl
  findings := ⟨_, a.unparsed_findings path language (Text.countLines text) message timedOut, rfl, rfl, rfl, rfl⟩
  errors := rfl

/-! ## Metrics -/

/-- **Within a time budget in range the metrics of a tree are collected**, unless the time is spent. -/
theorem collectMetrics_cases (root : Syntax.Node) (lines : Int) (hdl : InRange dl) :
    (∃ b, (Syntax.collectMetrics root lines dl).1 = .error (.timeout b)) ∨
      ∃ m, (Syntax.collectMetrics root lines dl).1 = .ok m ∧ 1 ≤ m.complexity ∧ m.lines = lines := by
  have hcomplexity : 1 ≤ (Metrics.counted root lines).complexity := by
    unfold Metrics.counted
    dsimp only
    omega
  have hfree : (Syntax.collectMetrics root lines none).1 = .ok (.counted root lines) :=
    congrArg Prod.fst (Syntax.collectMetrics_none root lines)
  cases dl with
  | none => exact .inr ⟨_, hfree, hcomplexity, rfl⟩
  | some d =>
    obtain ⟨k, hk | hk⟩ := (collectMetrics_polled root lines).timely.within d (hdl d rfl)
    · exact .inr ⟨_, by rw [hk, hfree], hcomplexity, rfl⟩
    · exact .inl ⟨d.budget, by rw [hk]⟩

/-! ## Files in a language -/

/-- **A file in a language has a result that tells of a failure, or of its tree.** -/
theorem analyzeWithin_shape (hc : a.collect = Syntax.collectMetrics)
    (hx : ∀ x ∈ a.registry.analyzers, ∃ b ∈ Registry.builtin.analyzers, x.Follows b) (session : Session)
    (path text language : String) (hp : KeepsBudget (a.parse session path text language)) (hdl : InRange dl) :
    (∃ message timedOut, Undone a session path text language dl message timedOut ∧
        (a.analyzeWithin session path text language dl).result =
          a.unparsed path language (Text.countLines text) message timedOut) ∨
      Completed (a.analyzeWithin session path text language dl).result path text language := by
  rcases analyzeWithin_ends (a := a) session path text language dl with hundone | ⟨root, m, q, -, hfile, hr⟩
  · exact .inl hundone
  right
  rw [hr]
  -- the parser and each pass may spend time, but what is left of it stays in range
  have hleft : InRange (a.parse session path text language dl).2 := hp.inRange hdl
  have hkeeps : ∀ x ∈ a.registry.analyzers, KeepsBudget (x.analyze ⟨path, language, a.rules⟩ root) := by
    intro x hmem
    obtain ⟨b, -, hfollows⟩ := hx x hmem
    exact hfollows.keeps _ root
  obtain ⟨es, dl', hpassed, hmetrics⟩ := (fileOf_cases path language _).2 m q hfile
  have hm : 1 ≤ m.complexity ∧ m.lines = Text.countLines text := by
    rw [hc] at hmetrics
    rcases collectMetrics_cases root (Text.countLines text) (hpassed.inRange hkeeps hleft) with ⟨b, hb⟩ | ⟨m', hm', hvalues⟩
    · -- a timeout ends the measuring, so it has not come to metrics
      rcases hmetrics with ⟨-, h⟩ | ⟨e, h, htimeout, -, -⟩
      · rw [hb] at h
        cases h
      · rw [hb] at h
        cases h
        cases htimeout
    · rcases hmetrics with ⟨-, h⟩ | ⟨e, h, -, -, -⟩
      · rw [hm'] at h
        cases h
        exact hvalues
      · rw [hm'] at h
        cases h
  -- numbering and the severity floor keep the rules, so it is enough that no analyzer finds of this one
  have hspared : ∀ f ∈ q.findings, f.rule.id ≠ parseErrorId := by
    refine hpassed.forall_findings fun x hmem dl fs hfs => ?_
    obtain ⟨b, hb, hfollows⟩ := hx x hmem
    exact Analyzer.builtin_spares hb (hfollows.finds _ root dl fs hfs)
  refine ⟨rfl, rfl, rfl, fun f hf => ?_, hm.1, hm.2⟩
  obtain ⟨g, hg, n, rfl⟩ := exists_of_mem_finish hf
  exact hspared g hg

/-! ## All files -/

/-- A file analyzer whose time budget and whose first reading of the clock are in the range of doubles. -/
structure BudgetFits (a : FileAnalyzer) : Prop where
  timeout : ∀ t ∈ a.timeout, t.toFloat?.isSome = true
  clock : (a.clock 0).toFloat?.isSome = true

theorem add_of_fits {x y : Quantity} (hx : x.toFloat?.isSome = true) (hy : y.toFloat?.isSome = true) :
    (x.add y).isSome = true := by
  obtain ⟨u, hu⟩ := Option.isSome_iff_exists.1 hx
  obtain ⟨v, hv⟩ := Option.isSome_iff_exists.1 hy
  unfold Quantity.add
  split
  · rfl
  · rw [hu, hv]
    rfl

/-- **A time budget in the range of doubles begins.** -/
theorem budget_of_fits (h : a.BudgetFits) : ∃ dl, a.budget = .ok dl ∧ InRange dl := by
  unfold budget
  cases ht : a.timeout with
  | none => exact ⟨none, rfl, Syntax.inRange_none⟩
  | some t =>
    have hfits : t.toFloat?.isSome = true := h.timeout t ht
    rw [Option.filter_some]
    cases t.isZero with
    | true => exact ⟨none, rfl, Syntax.inRange_none⟩
    | false =>
      obtain ⟨e, he⟩ := Option.isSome_iff_exists.1 (add_of_fits h.clock hfits)
      refine ⟨some ⟨t, e, a.clock, 1⟩, ?_, ?_⟩
      · rw [Bool.not_false, if_pos rfl, Option.mapM_some, Deadline.start, he]
        rfl
      · intro d hd
        cases hd
        exact hfits

theorem unparsed_minSeverity (m : Severity) (path language : String) (lines : Nat) (message : String) (timedOut : Bool) :
    ({ a with minSeverity := m } : FileAnalyzer).unparsed path language lines message timedOut =
      a.unparsed path language lines message timedOut := by
  have hm := unparsed_findings { a with minSeverity := m } path language lines message timedOut
  have h := unparsed_findings a path language lines message timedOut
  exact congrArg (fun fs => { a.unparsed path language lines message timedOut with findings := fs }) (hm.trans h.symm)

/-- **Whether a result tells of a failure, and how**, does not depend on the severity that is asked for. -/
theorem analyzeWithin_minSeverity (m : Severity) (session : Session) (path text language : String) :
    let r := (a.analyzeWithin session path text language dl).result
    let r' := (({ a with minSeverity := m } : FileAnalyzer).analyzeWithin session path text language dl).result
    r'.parsed = r.parsed ∧ (r.parsed = false → r' = r) := by
  intro r r'
  have hfile : ({ a with minSeverity := m } : FileAnalyzer).fileOf = a.fileOf := rfl
  simp only [r, r', analyzeWithin_result, hfile]
  cases (a.parse session path text language dl).1.outcome with
  | error e =>
    dsimp only
    rw [parseFailed_eq, parseFailed_eq, unparsed_minSeverity]
    exact ⟨rfl, fun _ => rfl⟩
  | ok root =>
    dsimp only
    cases (a.fileOf path language (Text.countLines text) root (a.parse session path text language dl).2).1 with
    | error why =>
      rw [report, report, unparsed_minSeverity]
      exact ⟨rfl, fun _ => rfl⟩
    | ok out => exact ⟨rfl, fun h => by cases h⟩

/-- **The analysis of a file fails only where its time budget does not begin**, and then with the failure of the budget. -/
theorem analyze_fails_iff {session : Session} {path text : String} {given : Option String} {why : Failure} :
    a.analyze session path text given = .error why ↔
      (∃ language, languageOf path given = some language) ∧ a.budget = .error why := by
  rw [analyze]
  cases languageOf path given with
  | none =>
    constructor
    · intro h
      cases h
    · rintro ⟨⟨language, h⟩, -⟩
      cases h
  | some language =>
    dsimp only
    rw [analyzeAs]
    cases a.budget with
    | error e =>
      constructor
      · intro h
        cases h
        exact ⟨⟨language, rfl⟩, rfl⟩
      · rintro ⟨-, h⟩
        cases h
        rfl
    | ok dl =>
      constructor
      · intro h
        cases h
      · rintro ⟨-, h⟩
        cases h

/-- **The analysis of a file does not fail, and its result has one of three shapes.**  It is empty if the file is in no
language that is analyzed; else it tells of a failure and of nothing else, or it is that of a file with a tree.  This is so
whatever the parser does and whatever the analyzers fail with, if they are built-in ones but for that; and whether it tells
of a failure, and how, is the same whatever severity is asked for. -/
theorem analyze_shapes (a : FileAnalyzer) (session : Session) (path text : String) (given : Option String)
    (hc : a.collect = Syntax.collectMetrics) (ht : a.BudgetFits)
    (hp : ∀ session path text language, KeepsBudget (a.parse session path text language))
    (hx : ∀ x ∈ a.registry.analyzers, ∃ b ∈ Registry.builtin.analyzers, x.Follows b) :
    ∃ r, a.analyze session path text given = .ok r ∧
      (languageOf path given = none → r.result = { path, language := none }) ∧
      (∀ language, languageOf path given = some language →
        (∃ dl message timedOut, a.budget = .ok dl ∧ Undone a session path text language dl message timedOut ∧
          TellsFailure r.result path text language message timedOut) ∨
        Completed r.result path text language) ∧
      ∀ m, ∃ r', ({ a with minSeverity := m } : FileAnalyzer).analyze session path text given = .ok r' ∧
        r'.result.parsed = r.result.parsed ∧ (r.result.parsed = false → r'.result = r.result) := by
  cases hl : languageOf path given with
  | none =>
    refine ⟨_, by rw [analyze, hl], fun _ => rfl, fun _ h => (by cases h), fun m => ?_⟩
    exact ⟨_, by rw [analyze, hl], rfl, fun _ => rfl⟩
  | some language =>
    obtain ⟨dl, hb, hdl⟩ := budget_of_fits ht
    refine ⟨_, analyze_of_budget hl hb session text, fun h => (by cases h), ?_, fun m => ?_⟩
    · rintro _ ⟨⟩
      rcases analyzeWithin_shape hc hx session path text language (hp _ _ _ _) hdl with ⟨message, timedOut, hwhy, hr⟩ | h
      · exact .inl ⟨dl, message, timedOut, hb, hwhy, hr ▸ unparsed_tells path text language message timedOut⟩
      · exact .inr h
    · have hb' : ({ a with minSeverity := m } : FileAnalyzer).budget = .ok dl := hb
      exact ⟨_, analyze_of_budget hl hb' session text, analyzeWithin_minSeverity m session path text language⟩

/-- **The parser of a host keeps its time budget.** -/
theorem hostParse_keepsBudget (host : Grammar.Host) (tolerant : Bool) (session : Session) (path text language : String) :
    KeepsBudget (hostParse host tolerant session path text language) := by
  intro dl hdl
  show (Grammar.parse host tolerant session text language dl).2.map (·.budget) = _
  unfold Grammar.parse
  cases Language.ofName? language with
  | none => rfl
  | some l =>
    dsimp only
    cases (Grammar.chooseTree host text (Grammar.tableOf l) session).outcome with
    | error e => rfl
    | ok tree =>
      dsimp only [Grammar.canonical]
      split
      · rfl
      · exact (Grammar.normalize_polled _ _ tree).timely.keepsBudget dl hdl

def crashing : FileAnalyzer where
  parse := hostParse oneNode false
  registry := ⟨[{ name := "bugs", analyze := fun _ _ dl => (.error (.raised "RuntimeError" "boom"), dl) },
    Analyzer.complexity]⟩
  timeout := some (.whole 5)

/-- A crash of an analyzer leaves the result of a file with a tree. -/
theorem crashing_completed : ∃ r, crashing.analyze {} "a.py" "" none = .ok r ∧ Completed r.result "a.py" "" "python" := by
  have hfits : crashing.BudgetFits := ⟨fun t ht => by cases ht; decide +kernel, rfl⟩
  have hkeeps : ∀ session path text language, KeepsBudget (crashing.parse session path text language) :=
    hostParse_keepsBudget oneNode false
  have hfollows : ∀ x ∈ crashing.registry.analyzers, ∃ b ∈ Registry.builtin.analyzers, x.Follows b := by
    simp only [crashing, List.forall_mem_cons, List.not_mem_nil, false_implies, implies_true, and_true]
    constructor
    · refine ⟨Analyzer.bugs, by simp [Registry.builtin, Registry.builtinAnalyzers], ?_, fun _ _ _ _ => rfl⟩
      intro c root dl fs h
      cases h
    · refine ⟨Analyzer.complexity, by simp [Registry.builtin, Registry.builtinAnalyzers], fun _ _ _ _ h => h, ?_⟩
      exact fun c root => (Analyzer.complexity_polled c root).timely.keepsBudget
  obtain ⟨r, hr, -, hshape, -⟩ := analyze_shapes crashing {} "a.py" "" none rfl hfits hkeeps hfollows
  have hparsed : ((crashing.analyze {} "a.py" "" none).toOption.map fun r => r.result.parsed) = some true := by
    decide +kernel
  rw [hr] at hparsed
  refine ⟨r, hr, ?_⟩
  rcases hshape "python" (by decide +kernel) with ⟨dl, message, timedOut, -, -, hfailure⟩ | h
  · have htree : r.result.parsed = true := Option.some.inj hparsed
    rw [hfailure.parsed] at htree
    cases htree
  · exact h

end FileAnalyzer
end Run
end CodeReview
