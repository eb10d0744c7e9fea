import CodeReview.Proofs.Run.Toggled
import CodeReview.Proofs.Syntax.Counts
/-!
# Analyzers that fail

On a tree an analyzer takes a course: it yields findings, and then it ends or fails (`Course`).  The result of a file has
the findings of the analyzers that apply and end, an error for each of those that apply and fail, and the metrics of the tree
(`analyzeWithin_courses`).  So an analyzer that fails takes nothing with it but what it has yielded itself, and a registry
without it makes the same result but for the errors (`failures_isolated`).
-/
namespace CodeReview

open Number (Quantity)

/-- What an analyzer does on a tree: the findings that it yields, and the failure that it raises after them, if it does. -/
structure Course where
  yielded : List Finding
  failure : Option Failure := none

/-- What a course comes to: all that has been yielded, unless there is a failure. -/
def Course.outcome (k : Course) : Except Failure (List Finding) :=
  match k.failure with
  | none => .ok k.yielded
  | some why => .error why

/-- An analyzer that takes a course on a tree, under a time budget or without one.  It raises no timeout but that of the
budget. -/
structure Analyzer.Takes (x : Analyzer) (c : Context) (root : Syntax.Node) (budget : Option Quantity) (k : Course) :
    Prop where
  comes : Syntax.ComesTo budget (x.analyze c root) k.outcome
  untimed : ∀ why ∈ k.failure, why.isTimeout = false

namespace Run

open Grammar (Session)
open Syntax (ComesTo Deadline InRange KeepsBudget Metrics)

/-- The findings of the analyzers that apply and end, one analyzer after the other. -/
def outputs (c : Context) (courses : Analyzer → Course) (xs : List Analyzer) : List Finding :=
  (xs.filter fun x => x.applies c && (courses x).failure.isNone).flatMap fun x => (courses x).yielded

/-- The errors of the analyzers that apply and fail, one for each. -/
def failures (c : Context) (courses : Analyzer → Course) (xs : List Analyzer) : List RunError :=
  (xs.filter fun x => x.applies c).filterMap fun x =>
    (courses x).failure.map fun why => { component := x.name, message := why.message, filePath := some c.path }

section

variable {c : Context} {courses : Analyzer → Course}

theorem outputs_cons (x : Analyzer) (xs : List Analyzer) :
    outputs c courses (x :: xs) = outputs c courses [x] ++ outputs c courses xs := by
  unfold outputs
  rw [← List.singleton_append, List.filter_append, List.flatMap_append]

theorem failures_cons (x : Analyzer) (xs : List Analyzer) :
    failures c courses (x :: xs) = failures c courses [x] ++ failures c courses xs := by
  unfold failures
  rw [← List.singleton_append, List.filter_append, List.filterMap_append]

theorem outputs_spared (xs : List Analyzer) :
    outputs c courses (xs.filter fun x => (courses x).failure.isNone) = outputs c courses xs := by
  unfold outputs
  rw [List.filter_filter]
  simp

theorem failures_spared (xs : List Analyzer) :
    failures c courses (xs.filter fun x => (courses x).failure.isNone) = [] := by
  unfold failures
  rw [List.filterMap_eq_nil_iff]
  intro x hx
  have hnone : (courses x).failure.isNone = true := (List.mem_filter.1 (List.mem_of_mem_filter hx)).2
  rw [Option.isNone_iff_eq_none.1 hnone]
  rfl

end

namespace FileAnalyzer

variable {a : FileAnalyzer} {c : Context} {courses : Analyzer → Course} {root : Syntax.Node} {budget : Option Quantity}

/-! ## Passes -/

/-- **A pass adds the findings of its analyzer or an error**, as its course is, and nothing where it does not apply. -/
theorem passOf_comes {p : Passes} {x : Analyzer} (hp : p.spent = none)
    (hx : x.applies c = true → x.Takes c root budget (courses x)) :
    ∃ q, ComesTo budget (passOf c root p x) (.ok q) ∧ q.spent = none ∧
      q.findings = p.findings ++ outputs c courses [x] ∧ q.errors = p.errors ++ failures c courses [x] := by
  by_cases ha : x.applies c = true
  · have hcomes := (hx ha).comes.map (p.absorb c x) (fun _ => rfl)
    rw [passOf_of_applies hp ha]
    cases hk : (courses x).failure with
    | none =>
      rw [Course.outcome, hk, Passes.absorb] at hcomes
      exact ⟨_, hcomes, hp, by simp [outputs, ha, hk], by simp [failures, ha, hk]⟩
    | some why =>
      have hno : why.isTimeout = false := (hx ha).untimed why hk
      rw [Course.outcome, hk, Passes.absorb, if_neg (by simp [hno])] at hcomes
      exact ⟨_, hcomes, hp, by simp [outputs, ha, hk, Passes.failed, Passes.under],
        by simp [failures, ha, hk, Passes.failed, Passes.under]⟩
  · have ha : x.applies c = false := by simpa using ha
    rw [passOf_of_not_applies hp ha]
    exact ⟨p.under none, Syntax.comesTo_pure _, hp, by simp [outputs, ha, Passes.under],
      by simp [failures, ha, Passes.under]⟩

/-- **Passes one after the other add up**, whichever of them fail. -/
theorem passesOf_comes : ∀ (xs : List Analyzer) (p : Passes), p.spent = none →
    (∀ x ∈ xs, x.applies c = true → x.Takes c root budget (courses x)) →
    ∃ q, ComesTo budget (passesOf c root xs p) (.ok q) ∧ q.spent = none ∧
      q.findings = p.findings ++ outputs c courses xs ∧ q.errors = p.errors ++ failures c courses xs
  | [], p, hp, _ => by
    rw [passesOf_nil hp]
    exact ⟨p.under none, Syntax.comesTo_pure _, hp, (List.append_nil _).symm, (List.append_nil _).symm⟩
  | x :: xs, p, hp, hx => by
    obtain ⟨p', hone, hp', hfindings, herrors⟩ := passOf_comes hp (hx x (by simp))
    obtain ⟨q, hrest, hq, hfindings', herrors'⟩ := passesOf_comes xs p' hp' (fun y hy => hx y (by simp [hy]))
    refine ⟨q, ?_, hq, ?_, ?_⟩
    · rw [passesOf_cons]
      exact hone.andThen hrest
    · rw [hfindings', hfindings, outputs_cons x xs, List.append_assoc]
    · rw [herrors', herrors, failures_cons x xs, List.append_assoc]

/-! ## Files -/

theorem collectMetrics_comes (root : Syntax.Node) (lines : Int) (hb : ∀ b ∈ budget, b.toFloat?.isSome = true) :
    ComesTo budget (Syntax.collectMetrics root lines) (.ok (.counted root lines)) := by
  have hcomes : ComesTo budget (Syntax.collectMetrics root lines) (Syntax.collectMetrics root lines none).1 :=
    (Syntax.Walk.fold_sameOrSpent _ _ root).comesTo (collectMetrics_polled root lines).timely.keepsBudget hb
  rwa [Syntax.collectMetrics_none] at hcomes

theorem fileOf_comes (hc : a.collect = Syntax.collectMetrics) (hb : ∀ b ∈ budget, b.toFloat?.isSome = true)
    (path language : String) (lines : Nat) (hx : ∀ x ∈ a.registry.analyzers, x.applies ⟨path, language, a.rules⟩ = true →
      x.Takes ⟨path, language, a.rules⟩ root budget (courses x)) :
    ∃ q, q.findings = outputs ⟨path, language, a.rules⟩ courses a.registry.analyzers ∧
      q.errors = failures ⟨path, language, a.rules⟩ courses a.registry.analyzers ∧
      ComesTo budget (a.fileOf path language lines root) (.ok (.counted root lines, q)) := by
  obtain ⟨p, hpasses, hp, hfindings, herrors⟩ :=
    passesOf_comes a.registry.analyzers { deadline := none } rfl hx
  have hmeasure : ComesTo budget (measureOf a path root lines p) (measured path lines p (.ok (.counted root lines))) := by
    rw [measureOf_of_unspent a path root lines hp, hc]
    exact (collectMetrics_comes root lines hb).map (measured path lines p) (fun _ => rfl)
  exact ⟨p.under none, hfindings, herrors, hpasses.andThen hmeasure⟩

/-- **A file with a tree has the result that the courses of its analyzers make**, or that of a file that took too long.
Which findings and errors and metrics there are does not depend on what is left of the time budget. -/
theorem analyzeWithin_courses (hc : a.collect = Syntax.collectMetrics) {session : Session} {path text language : String}
    {dl : Option Deadline} (ht : InRange dl) (hp : KeepsBudget (a.parse session path text language))
    (hroot : (a.parse session path text language dl).1.outcome = .ok root)
    (hx : ∀ x ∈ a.registry.analyzers, x.applies ⟨path, language, a.rules⟩ = true →
      x.Takes ⟨path, language, a.rules⟩ root (dl.map (·.budget)) (courses x)) :
    ∃ q, q.findings = outputs ⟨path, language, a.rules⟩ courses a.registry.analyzers ∧
      q.errors = failures ⟨path, language, a.rules⟩ courses a.registry.analyzers ∧
      ((a.analyzeWithin session path text language dl).result =
          a.report path language (Text.countLines text) (.ok (.counted root (Text.countLines text), q)) ∨
        ∃ d ∈ dl, (a.analyzeWithin session path text language dl).result = a.timedOut path text language d.budget) := by
  obtain ⟨q, hfindings, herrors, hfile⟩ := fileOf_comes hc ht.budgets path language (Text.countLines text) hx
  refine ⟨q, hfindings, herrors, ?_⟩
  rw [analyzeWithin_result, hroot]
  -- the parser may have spent time, but what it leaves is left of the same budget
  obtain ⟨-, hsame | ⟨b, hmem, hspent⟩⟩ := hfile (a.parse session path text language dl).2 (hp dl ht)
  · exact .inl (congrArg (a.report path language (Text.countLines text)) hsame)
  · obtain ⟨d, hd, rfl⟩ := Option.map_eq_some_iff.1 hmem
    exact .inr ⟨d, hd, congrArg (a.report path language (Text.countLines text)) hspent⟩

theorem keeps_of_low (h : a.minSeverity = .low) (f : Finding) : a.keeps f = true := by
  have hlow : Severity.low ≤ f.severity := by cases f.severity <;> decide
  rw [keeps, h, decide_eq_true hlow, Bool.true_or]

theorem finish_of_low (h : a.minSeverity = .low) (path : String) (fs : List Finding) : a.finish path fs = number path fs := by
  rw [finish, List.filter_eq_self.2 fun f _ => keeps_of_low h f]

/-- What the result of a file says whose analyzers take courses on its tree. -/
structure Isolates (c : Context) (text : String) (root : Syntax.Node) (courses : Analyzer → Course) (xs : List Analyzer)
    (r : FileResult) : Prop where
  path_eq : r.path = c.path
  language_eq : r.language = some c.language
  parsed : r.parsed = true
  findings : r.findings.map (·.withId "") = (outputs c courses xs).map (·.withId "")
  errors : r.errors = failures c courses xs
  metrics : (Syntax.collectMetrics root (Text.countLines text) none).1 = .ok r.metrics

/-- **Failures of analyzers are isolated.**  Let each analyzer of a registry that applies take a course on the tree of a file:
it yields findings and ends, or yields some and fails with anything but a timeout.  With the lowest floor the file has the
findings of those that end, in the order of the registry and up to identifiers, an error for each that fails, and the metrics
of the tree; those that do not apply leave nothing.  So a registry without the analyzers that fail makes the same result
without the errors.  A time budget, if there is one, may only make a timed-out file of it. -/
theorem failures_isolated (a : FileAnalyzer) (courses : Analyzer → Course) (session : Session)
    (path text language : String) (given : Option String) (dl : Option Deadline) (root : Syntax.Node)
    (hl : languageOf path given = some language) (hb : a.budget = .ok dl) (ht : InRange dl)
    (hp : KeepsBudget (a.parse session path text language))
    (hroot : (a.parse session path text language dl).1.outcome = .ok root)
    (hx : ∀ x ∈ a.registry.analyzers, x.applies ⟨path, language, a.rules⟩ = true →
      x.Takes ⟨path, language, a.rules⟩ root (dl.map (·.budget)) (courses x)) :
    let whole : FileAnalyzer := { a with collect := Syntax.collectMetrics, minSeverity := .low }
    let spared : FileAnalyzer :=
      { whole with registry := ⟨a.registry.analyzers.filter fun x => (courses x).failure.isNone⟩ }
    ∃ r r', whole.analyze session path text given = .ok r ∧ spared.analyze session path text given = .ok r' ∧
      (Isolates ⟨path, language, a.rules⟩ text root courses a.registry.analyzers r.result ∨
        ∃ d ∈ dl, r.result = whole.timedOut path text language d.budget) ∧
      (r'.result = { r.result with errors := [] } ∨ ∃ d ∈ dl, r.result = whole.timedOut path text language d.budget ∨
        r'.result = whole.timedOut path text language d.budget) := by
  intro whole spared
  have hfew : ∀ x ∈ spared.registry.analyzers, x.applies ⟨path, language, a.rules⟩ = true →
      x.Takes ⟨path, language, a.rules⟩ root (dl.map (·.budget)) (courses x) :=
    fun x hmem => hx x (List.mem_of_mem_filter hmem)
  have hmetrics : (Syntax.collectMetrics root (Text.countLines text) none).1 = .ok (.counted root (Text.countLines text)) :=
    congrArg Prod.fst (Syntax.collectMetrics_none root _)
  obtain ⟨q, hfindings, herrors, hr⟩ := analyzeWithin_courses (a := whole) rfl ht hp hroot hx
  obtain ⟨q', hfindings', herrors', hr'⟩ := analyzeWithin_courses (a := spared) rfl ht hp hroot hfew
  refine ⟨_, _, analyze_of_budget (a := whole) hl hb session text, analyze_of_budget (a := spared) hl hb session text,
    ?_, ?_⟩
  · rcases hr with hr | ⟨d, hd, hr⟩
    · rw [hr]
      refine .inl ⟨rfl, rfl, rfl, ?_, herrors, hmetrics⟩
      show (whole.finish path q.findings).map (·.withId "") = _
      rw [finish_of_low rfl, number_erased, hfindings]
    · exact .inr ⟨d, hd, hr⟩
  · rcases hr with hr | ⟨d, hd, hr⟩
    · rcases hr' with hr' | ⟨d, hd, hr'⟩
      · have hfound : q'.findings = q.findings := by rw [hfindings', hfindings]; exact outputs_spared _
        have hnone : q'.errors = [] := herrors'.trans (failures_spared _)
        left
        rw [hr, hr', report, report, hfound, hnone]
        rfl
      · exact .inr ⟨d, hd, .inr hr'⟩
    · exact .inr ⟨d, hd, .inl hr⟩

def ofCourse (name : String) (languages : Option (List String)) (k : Course) : Analyzer where
  name
  languages
  analyze _ _ dl := (k.outcome, dl)

def trifle : Finding where
  id := ""
  category := .style
  severity := .low
  title := ""
  description := ""
  location := { path := "a.js", line := 1, column := 1 }
  rule := ⟨"trifle", "", .style, none, by decide⟩

/-- The course of the analyzer for bugs ends in a crash; the others end well. -/
def oneCrash (x : Analyzer) : Course :=
  { yielded := [trifle], failure := if x.name == "bugs" then some (.raised "RuntimeError" "boom") else none }

/-- A file analyzer whose first analyzer crashes, and whose second is not for the language. -/
def unsteady : FileAnalyzer where
  parse := evalFile.parse
  registry := ⟨[
    ofCourse "bugs" none ⟨[trifle], some (.raised "RuntimeError" "boom")⟩,
    ofCourse "security" (some ["python"]) ⟨[trifle, trifle], none⟩,
    ofCourse "performance" none ⟨[trifle], none⟩]⟩
  timeout := none

/-- The crash is told of, what came before it is dropped, and the analyzer behind it is heard. -/
theorem one_crash_told : ∃ r r', unsteady.analyze {} "a.js" "eval('1')" none = .ok r ∧
    ({ unsteady with registry := ⟨unsteady.registry.analyzers.filter fun x => (oneCrash x).failure.isNone⟩ } :
      FileAnalyzer).analyze {} "a.js" "eval('1')" none = .ok r' ∧
    r.result.findings.map (·.withId "") = [trifle] ∧
    r.result.errors = [{ component := "bugs", message := "boom", filePath := some "a.js" }] ∧
    r'.result = { r.result with errors := [] } := by
  have hcourses : ∀ x ∈ unsteady.registry.analyzers, x.applies ⟨"a.js", "javascript", unsteady.rules⟩ = true →
      x.Takes ⟨"a.js", "javascript", unsteady.rules⟩ evalTree none (oneCrash x) := by
    simp only [unsteady, List.forall_mem_cons, List.not_mem_nil, false_implies, implies_true, and_true]
    refine ⟨fun _ => ⟨fun dl hdl => ⟨hdl, .inl rfl⟩, ?_⟩, fun h => ?_, fun _ => ⟨fun dl hdl => ⟨hdl, .inl rfl⟩, ?_⟩⟩
    · intro why hwhy
      cases hwhy
      rfl
    · cases h
    · exact fun why hwhy => by cases hwhy
  obtain ⟨r, r', hr, hr', hwhole, hspared⟩ := failures_isolated unsteady oneCrash {} "a.js" "eval('1')" "javascript" none
    none evalTree (by decide +kernel) rfl Syntax.inRange_none (fun dl _ => rfl) rfl hcourses
  refine ⟨r, r', hr, hr', ?_⟩
  rcases hwhole with h | ⟨d, hd, -⟩
  · rcases hspared with hsame | ⟨d, hd, -⟩
    · exact ⟨h.findings, h.errors, hsame⟩
    · cases hd
  · cases hd

end FileAnalyzer
end Run
end CodeReview
