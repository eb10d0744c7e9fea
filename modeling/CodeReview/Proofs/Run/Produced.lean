import CodeReview.Proofs.Analyzer.Grounded
import CodeReview.Proofs.Run.Budget
import CodeReview.Run.Repository
/-!
# What analyzers produce

The analyzers of a file go over its tree one after the other, each with what those before it have left of the time budget.
They come to an end (`Passed`), or one of them runs out of time (`RunsOut`).  So a file tells of its tree, or of why it does
not (`Undone`): there is no tree, or the time has run out (`analyzeWithin_ends`).  Either way what it has found is filtered by
severity and numbered, and else reported as it is (`analyzeWithin_found`).  Its errors are those of the analyzers that have
failed, of the metrics and of the engine (`analyze_errors`).
-/
namespace CodeReview

/-- Whether a text has no tree for want of time. -/
def Grammar.ParseError.isTimeout : Grammar.ParseError → Bool
  | .failed why => why.isTimeout
  | _ => false

namespace Run

open Grammar (ParseError Session)
open Number (Quantity)
open Syntax (Budgeted Deadline InRange KeepsBudget Metrics)

/-- What an analyzer leaves in a result and of a time budget: the findings that it gives, or an error if it fails by anything
but a timeout. -/
inductive Yields (c : Context) (root : Syntax.Node) (x : Analyzer) (dl : Option Deadline) :
    List Finding → List RunError → Option Deadline → Prop
  | passedOver : x.applies c = false → Yields c root x dl [] [] dl
  | failed {e : Failure} {dl' : Option Deadline} : x.applies c = true → x.analyze c root dl = (.error e, dl') →
    e.isTimeout = false →
    Yields c root x dl [] [{ component := x.name, message := e.message, filePath := some c.path }] dl'
  | finds {fs : List Finding} {dl' : Option Deadline} : x.applies c = true → x.analyze c root dl = (.ok fs, dl') →
    Yields c root x dl fs [] dl'

/-- What analyzers yield one after the other. -/
inductive Passed (c : Context) (root : Syntax.Node) : List Analyzer → Option Deadline →
    List Finding → List RunError → Option Deadline → Prop
  | nil {dl : Option Deadline} : Passed c root [] dl [] [] dl
  | cons {x : Analyzer} {xs : List Analyzer} {dl dl' dl'' : Option Deadline} {fs gs : List Finding}
      {es es' : List RunError} :
    Yields c root x dl fs es dl' → Passed c root xs dl' gs es' dl'' →
    Passed c root (x :: xs) dl (fs ++ gs) (es ++ es') dl''

/-- That one of several analyzers runs out of time, after those before it have yielded what they do. -/
inductive RunsOut (c : Context) (root : Syntax.Node) : List Analyzer → Option Deadline → Quantity → Prop
  | here {x : Analyzer} {xs : List Analyzer} {dl : Option Deadline} {b : Quantity} : x.applies c = true →
    (x.analyze c root dl).1 = .error (.timeout b) → RunsOut c root (x :: xs) dl b
  | later {x : Analyzer} {xs : List Analyzer} {dl dl' : Option Deadline} {fs : List Finding} {es : List RunError}
      {b : Quantity} :
    Yields c root x dl fs es dl' → RunsOut c root xs dl' b → RunsOut c root (x :: xs) dl b

/-- Why nothing is told of the tree of a file, with the message of the failure and whether that is one of time: the file has
not been parsed, or the time was spent in an analyzer or while metrics were collected. -/
inductive Undone (a : FileAnalyzer) (session : Session) (path text language : String) (dl : Option Deadline) :
    String → Bool → Prop
  | unparsed {e : ParseError} : (a.parse session path text language dl).1.outcome = .error e →
    Undone a session path text language dl e.message e.isTimeout
  | analyzedLate {root : Syntax.Node} {b : Quantity} :
    (a.parse session path text language dl).1.outcome = .ok root →
    RunsOut ⟨path, language, a.rules⟩ root a.registry.analyzers (a.parse session path text language dl).2 b →
    Undone a session path text language dl (Failure.timeout b).message true
  | measuredLate {root : Syntax.Node} {fs : List Finding} {es : List RunError} {dl' : Option Deadline} {b : Quantity} :
    (a.parse session path text language dl).1.outcome = .ok root →
    Passed ⟨path, language, a.rules⟩ root a.registry.analyzers (a.parse session path text language dl).2 fs es dl' →
    (a.collect root (Text.countLines text) dl').1 = .error (.timeout b) →
    Undone a session path text language dl (Failure.timeout b).message true

/-- What a file analyzer has of a text before it filters and numbers it: what the analyzers yield for the tree, or the finding
that tells why that is not told. -/
inductive Found (a : FileAnalyzer) (session : Session) (path text language : String) (dl : Option Deadline) :
    List Finding → Prop
  | undone {message : String} {timedOut : Bool} : Undone a session path text language dl message timedOut →
    Found a session path text language dl [a.unparsedFinding path message timedOut]
  | analyzed {root : Syntax.Node} {fs : List Finding} {es : List RunError} {dl' : Option Deadline} :
    (a.parse session path text language dl).1.outcome = .ok root →
    Passed ⟨path, language, a.rules⟩ root a.registry.analyzers (a.parse session path text language dl).2 fs es dl' →
    (∀ b, (a.collect root (Text.countLines text) dl').1 ≠ .error (.timeout b)) →
    Found a session path text language dl fs

/-! ## What holds of all that analyzers yield -/

section

variable {c : Context} {root : Syntax.Node} {dl dl' : Option Deadline} {fs : List Finding} {es : List RunError}

theorem Yields.component {x : Analyzer} (h : Yields c root x dl fs es dl') : ∀ e ∈ es, e.component = x.name := by
  intro e he
  cases h with
  | passedOver => cases he
  | failed => rw [List.mem_singleton.1 he]
  | finds => cases he

theorem Yields.inRange {x : Analyzer} (h : Yields c root x dl fs es dl') (hx : KeepsBudget (x.analyze c root))
    (hdl : InRange dl) : InRange dl' := by
  have hleft := hx.inRange hdl
  cases h with
  | passedOver => exact hdl
  | failed _ hr => rwa [hr] at hleft
  | finds _ hr => rwa [hr] at hleft

theorem Passed.component {xs : List Analyzer} (h : Passed c root xs dl fs es dl') :
    ∀ e ∈ es, ∃ x ∈ xs, e.component = x.name := by
  induction h with
  | nil => exact fun e he => by cases he
  | @cons x xs _ _ _ _ _ _ _ hx _ ih =>
    intro e he
    rcases List.mem_append.1 he with he | he
    · exact ⟨x, List.mem_cons_self, hx.component e he⟩
    · obtain ⟨y, hy, hname⟩ := ih e he
      exact ⟨y, List.mem_cons_of_mem x hy, hname⟩

theorem Passed.inRange {xs : List Analyzer} (h : Passed c root xs dl fs es dl')
    (hxs : ∀ x ∈ xs, KeepsBudget (x.analyze c root)) (hdl : InRange dl) : InRange dl' := by
  induction h with
  | nil => exact hdl
  | cons hx _ ih =>
    exact ih (fun y hy => hxs y (List.mem_cons_of_mem _ hy)) (hx.inRange (hxs _ List.mem_cons_self) hdl)

/-- **What holds of all that analyzers find holds of all that they yield.** -/
theorem Passed.forall_findings {P : Finding → Prop} {xs : List Analyzer} (h : Passed c root xs dl fs es dl')
    (hxs : ∀ x ∈ xs, ∀ dl gs, (x.analyze c root dl).1 = .ok gs → ∀ f ∈ gs, P f) : ∀ f ∈ fs, P f := by
  induction h with
  | nil => exact fun f hf => by cases hf
  | @cons x xs dl _ _ _ _ _ _ hx _ ih =>
    intro f hf
    rcases List.mem_append.1 hf with hf | hf
    · cases hx with
      | passedOver => cases hf
      | failed => cases hf
      | finds _ hr => exact hxs x List.mem_cons_self dl _ (congrArg Prod.fst hr) f hf
    · exact ih (fun y hy => hxs y (List.mem_cons_of_mem x hy)) f hf

end

/-- **What is found** tells that there is no tree, or is what analyzers find in the tree. -/
theorem Found.forall_findings {P : Finding → Prop} {a : FileAnalyzer} {session : Session} {path text language : String}
    {dl : Option Deadline} {fs : List Finding} (h : Found a session path text language dl fs)
    (hundone : ∀ message timedOut, P (a.unparsedFinding path message timedOut))
    (hxs : ∀ root, (a.parse session path text language dl).1.outcome = .ok root → ∀ x ∈ a.registry.analyzers,
      ∀ dl gs, (x.analyze ⟨path, language, a.rules⟩ root dl).1 = .ok gs → ∀ f ∈ gs, P f) : ∀ f ∈ fs, P f := by
  cases h with
  | undone _ =>
    intro f hf
    rw [List.mem_singleton.1 hf]
    exact hundone _ _
  | analyzed hroot hpassed _ => exact hpassed.forall_findings (hxs _ hroot)

namespace FileAnalyzer

variable {a : FileAnalyzer} {c : Context} {root : Syntax.Node} {dl dl' : Option Deadline}

theorem exists_timeout {e : Failure} (h : e.isTimeout = true) : ∃ b, e = .timeout b := by
  cases e with
  | timeout b => exact ⟨b, rfl⟩
  | _ => cases h

/-! ## Passes -/

/-- **A pass adds what its analyzer yields.** -/
theorem passOf_yields {p q : Passes} {x : Analyzer} (hp : p.spent = none) (h : passOf c root p x dl = (.ok q, dl')) :
    q.spent = none ∧
      ∃ fs es, Yields c root x dl fs es dl' ∧ q.findings = p.findings ++ fs ∧ q.errors = p.errors ++ es := by
  cases hx : x.applies c with
  | false =>
    rw [passOf_of_not_applies hp hx] at h
    cases h
    exact ⟨hp, [], [], .passedOver hx, (List.append_nil _).symm, (List.append_nil _).symm⟩
  | true =>
    rw [passOf_of_applies hp hx] at h
    dsimp only at h
    rcases hr : x.analyze c root dl with ⟨e | fs, left⟩
    · rw [hr, Passes.absorb] at h
      cases he : e.isTimeout with
      | true =>
        rw [if_pos he] at h
        cases h
      | false =>
        rw [if_neg (by simp [he])] at h
        cases h
        exact ⟨hp, [], _, .failed hx hr he, (List.append_nil _).symm, rfl⟩
    · rw [hr] at h
      cases h
      exact ⟨hp, fs, [], .finds hx hr, rfl, (List.append_nil _).symm⟩

theorem passOf_error {p : Passes} {x : Analyzer} {why : Failure} (hp : p.spent = none)
    (h : (passOf c root p x dl).1 = .error why) :
    x.applies c = true ∧ ∃ b, why = .timeout b ∧ (x.analyze c root dl).1 = .error (.timeout b) := by
  cases hx : x.applies c with
  | false => rw [passOf_of_not_applies hp hx] at h; cases h
  | true =>
    rw [passOf_of_applies hp hx] at h
    dsimp only at h
    cases hr : (x.analyze c root dl).1 with
    | ok fs => rw [hr] at h; cases h
    | error e =>
      rw [hr, Passes.absorb] at h
      split at h
      · rename_i ht
        obtain ⟨b, rfl⟩ := exists_timeout ht
        cases h
        exact ⟨rfl, b, rfl, rfl⟩
      · cases h

/-- **Passes one after the other add what their analyzers yield**, in order, unless one of them runs out of time. -/
theorem passesOf_cases (c : Context) (root : Syntax.Node) :
    ∀ (xs : List Analyzer) (p : Passes) (dl : Option Deadline), p.spent = none →
    (∀ why, (passesOf c root xs p dl).1 = .error why → ∃ b, why = .timeout b ∧ RunsOut c root xs dl b) ∧
    ∀ q dl', passesOf c root xs p dl = (.ok q, dl') → q.spent = none ∧
      ∃ fs es, Passed c root xs dl fs es dl' ∧ q.findings = p.findings ++ fs ∧ q.errors = p.errors ++ es
  | [], p, dl, hp => by
    rw [passesOf_nil hp]
    refine ⟨fun why h => (by cases h), fun q dl' h => ?_⟩
    cases h
    exact ⟨hp, [], [], .nil, (List.append_nil _).symm, (List.append_nil _).symm⟩
  | x :: xs, p, dl, hp => by
    rw [passesOf_cons, Budgeted.andThen]
    rcases hone : passOf c root p x dl with ⟨e | p', left⟩
    · obtain ⟨hx, b, rfl, hfails⟩ := passOf_error hp (congrArg Prod.fst hone)
      refine ⟨fun why h => ?_, fun q dl' h => (by cases h)⟩
      cases h
      exact ⟨b, rfl, .here hx hfails⟩
    · obtain ⟨hp', fs, es, hyields, hfindings, herrors⟩ := passOf_yields hp hone
      obtain ⟨herror, hok⟩ := passesOf_cases c root xs p' left hp'
      refine ⟨fun why h => ?_, fun q dl' h => ?_⟩
      · obtain ⟨b, hwhy, hlate⟩ := herror why h
        exact ⟨b, hwhy, .later hyields hlate⟩
      · obtain ⟨hq, gs, es', hpassed, hfindings', herrors'⟩ := hok q dl' h
        refine ⟨hq, fs ++ gs, es ++ es', .cons hyields hpassed, ?_, ?_⟩
        · rw [hfindings', hfindings, List.append_assoc]
        · rw [herrors', herrors, List.append_assoc]

theorem measureOf_cases (a : FileAnalyzer) (root : Syntax.Node) (dl : Option Deadline) (path : String) (lines : Nat)
    {p : Passes} (hp : p.spent = none) :
    (∀ why, (measureOf a path root lines p dl).1 = .error why →
      ∃ b, why = .timeout b ∧ (a.collect root lines dl).1 = .error (.timeout b)) ∧
    ∀ m q, (measureOf a path root lines p dl).1 = .ok (m, q) → q.findings = p.findings ∧
      ((q.errors = p.errors ∧ (a.collect root lines dl).1 = .ok m) ∨
        ∃ e, (a.collect root lines dl).1 = .error e ∧ e.isTimeout = false ∧ m = { lines } ∧
          q.errors = p.errors ++ [{ component := "metrics", message := e.message, filePath := some path }]) := by
  rw [measureOf_of_unspent a path root lines hp]
  dsimp only
  cases (a.collect root lines dl).1 with
  | ok m =>
    refine ⟨fun why h => (by cases h), fun m' q h => ?_⟩
    cases h
    exact ⟨rfl, .inl ⟨rfl, rfl⟩⟩
  | error e =>
    rw [measured]
    cases ht : e.isTimeout with
    | true =>
      obtain ⟨b, rfl⟩ := exists_timeout ht
      refine ⟨fun why h => ?_, fun m q h => (by cases h)⟩
      cases h
      exact ⟨b, rfl, rfl⟩
    | false =>
      rw [if_neg (by decide)]
      refine ⟨fun why h => (by cases h), fun m q h => ?_⟩
      cases h
      exact ⟨rfl, .inr ⟨e, rfl, ht, rfl, rfl⟩⟩

/-! ## Files -/

/-- **What is made of a tree** is made of what its analyzers yield and of its metrics, unless the time runs out. -/
theorem fileOf_cases (path language : String) (lines : Nat) :
    (∀ why, (a.fileOf path language lines root dl).1 = .error why → ∃ b, why = .timeout b ∧
      (RunsOut ⟨path, language, a.rules⟩ root a.registry.analyzers dl b ∨
        ∃ fs es dl', Passed ⟨path, language, a.rules⟩ root a.registry.analyzers dl fs es dl' ∧
          (a.collect root lines dl').1 = .error (.timeout b))) ∧
    ∀ m q, (a.fileOf path language lines root dl).1 = .ok (m, q) →
      ∃ es dl', Passed ⟨path, language, a.rules⟩ root a.registry.analyzers dl q.findings es dl' ∧
        ((q.errors = es ∧ (a.collect root lines dl').1 = .ok m) ∨
          ∃ e, (a.collect root lines dl').1 = .error e ∧ e.isTimeout = false ∧ m = { lines } ∧
            q.errors = es ++ [{ component := "metrics", message := e.message, filePath := some path }]) := by
  rw [fileOf, Budgeted.andThen]
  obtain ⟨hlate, hpassed⟩ :=
    passesOf_cases ⟨path, language, a.rules⟩ root a.registry.analyzers { deadline := none } dl rfl
  rcases hpasses : passesOf ⟨path, language, a.rules⟩ root a.registry.analyzers { deadline := none } dl with ⟨e | p, dl'⟩
  · obtain ⟨b, rfl, hb⟩ := hlate e (congrArg Prod.fst hpasses)
    refine ⟨fun why h => ?_, fun m q h => (by cases h)⟩
    cases h
    exact ⟨b, rfl, .inl hb⟩
  · obtain ⟨hp, fs, es, hpassed, hfindings, herrors⟩ := hpassed p dl' hpasses
    rw [List.nil_append] at hfindings herrors
    obtain ⟨hmeasuredLate, hmeasured⟩ := measureOf_cases a root dl' path lines hp
    refine ⟨fun why h => ?_, fun m q h => ?_⟩
    · obtain ⟨b, hwhy, hb⟩ := hmeasuredLate why h
      exact ⟨b, hwhy, .inr ⟨fs, es, dl', hpassed, hb⟩⟩
    · obtain ⟨hq, hmetrics⟩ := hmeasured m q h
      rw [hfindings] at hq
      rw [herrors] at hmetrics
      exact ⟨es, dl', hq ▸ hpassed, hmetrics⟩

theorem parseFailed_eq (a : FileAnalyzer) (path language : String) (lines : Nat) (e : ParseError) :
    (a.parseFailed path language lines e).1 = a.unparsed path language lines e.message e.isTimeout := by
  cases e with
  | failed why => cases why <;> rfl
  | _ => rfl

/-- **A file tells why it is undone**, or what has been made of its tree. -/
theorem analyzeWithin_ends (session : Session) (path text language : String) (dl : Option Deadline) :
    (∃ message timedOut, Undone a session path text language dl message timedOut ∧
      (a.analyzeWithin session path text language dl).result =
        a.unparsed path language (Text.countLines text) message timedOut) ∨
    ∃ root m q, (a.parse session path text language dl).1.outcome = .ok root ∧
      (a.fileOf path language (Text.countLines text) root (a.parse session path text language dl).2).1 = .ok (m, q) ∧
      (a.analyzeWithin session path text language dl).result =
        a.report path language (Text.countLines text) (.ok (m, q)) := by
  rw [analyzeWithin_result]
  cases ho : (a.parse session path text language dl).1.outcome with
  | error e => exact .inl ⟨e.message, e.isTimeout, .unparsed ho, parseFailed_eq a path language _ e⟩
  | ok root =>
    dsimp only
    cases hfile : (a.fileOf path language (Text.countLines text) root (a.parse session path text language dl).2).1 with
    | error why =>
      left
      obtain ⟨b, rfl, hlate | ⟨fs, es, dl', hpassed, hb⟩⟩ := (fileOf_cases path language _).1 why hfile
      · exact ⟨_, true, .analyzedLate ho hlate, rfl⟩
      · exact ⟨_, true, .measuredLate ho hpassed hb, rfl⟩
    | ok out => exact .inr ⟨root, out.1, out.2, rfl, hfile, rfl⟩

/-- **A file reports what has been found in it**, filtered and numbered. -/
theorem analyzeWithin_found (session : Session) (path text language : String) (dl : Option Deadline) :
    ∃ fs, Found a session path text language dl fs ∧ (a.analyzeWithin session path text language dl).result.path = path ∧
      (a.analyzeWithin session path text language dl).result.findings = a.finish path fs := by
  rcases analyzeWithin_ends (a := a) session path text language dl with
    ⟨message, timedOut, hundone, hr⟩ | ⟨root, m, q, hroot, hfile, hr⟩
  · rw [hr]
    exact ⟨_, .undone hundone, rfl, rfl⟩
  · obtain ⟨es, dl', hpassed, hmetrics⟩ := (fileOf_cases path language _).2 m q hfile
    rw [hr]
    refine ⟨_, .analyzed hroot hpassed fun b hb => ?_, rfl, rfl⟩
    rcases hmetrics with ⟨-, hok⟩ | ⟨e, he, hno, -, -⟩
    · rw [hb] at hok
      cases hok
    · rw [hb] at he
      cases he
      cases hno

theorem exists_of_mem_finish {path : String} {fs : List Finding} {f : Finding} (h : f ∈ a.finish path fs) :
    ∃ g ∈ fs, ∃ n, f = g.withId (numberedId path g n) := by
  obtain ⟨⟨g, n⟩, hg, rfl⟩ := List.mem_map.1 h
  exact ⟨g, List.mem_of_mem_filter (List.fst_mem_of_mem_zipIdx hg), n, rfl⟩

/-- The result of an analysis is empty, or that of a file in a language within a time budget that has begun. -/
theorem analyze_ok {session : Session} {path text : String} {given : Option String} {r : Analyzed}
    (h : a.analyze session path text given = .ok r) :
    (languageOf path given = none ∧ r.result = { path, language := none }) ∨
      ∃ language dl, languageOf path given = some language ∧ a.budget = .ok dl ∧
        r = a.analyzeWithin session path text language dl := by
  rw [analyze] at h
  cases hl : languageOf path given with
  | none =>
    rw [hl] at h
    cases h
    exact .inl ⟨rfl, rfl⟩
  | some language =>
    rw [hl] at h
    dsimp only at h
    rw [analyzeAs] at h
    cases hb : a.budget with
    | error e => rw [hb] at h; cases h
    | ok dl =>
      rw [hb] at h
      cases h
      exact .inr ⟨language, dl, rfl, rfl, rfl⟩

theorem languageOf_name (path : String) (l : Language) : languageOf path (some l.name) = some l.name := by
  cases l <;> rfl

theorem known_of_budget (hb : a.budget = .ok dl) (session : Session) (path text : String) (l : Language) :
    a.known session path text l.name = .ok (a.analyzeWithin session path text l.name dl) :=
  analyze_of_budget (languageOf_name path l) hb session text

theorem known_of_no_budget {why : Failure} (hb : a.budget = .error why) (session : Session) (path text : String)
    (l : Language) : a.known session path text l.name = .error why := by
  rw [known, analyze, languageOf_name]
  dsimp only
  rw [analyzeAs, hb]
  rfl

/-- **A file of a language that is analyzed reports what has been found in it**, filtered and numbered. -/
theorem known_found {session : Session} {path text : String} {l : Language} {r : Analyzed}
    (h : a.known session path text l.name = .ok r) :
    ∃ dl fs, Found a session path text l.name dl fs ∧ r.result.path = path ∧ r.result.findings = a.finish path fs := by
  cases hb : a.budget with
  | error why =>
    rw [known_of_no_budget hb] at h
    cases h
  | ok dl =>
    rw [known_of_budget hb] at h
    cases h
    exact ⟨dl, analyzeWithin_found session path text l.name dl⟩

theorem unparsed_errors (path language : String) (lines : Nat) (message : String) (timedOut : Bool) :
    ∀ e ∈ (a.unparsed path language lines message timedOut).errors, e.component = "engine" := by
  intro e he
  cases timedOut with
  | false => cases he
  | true => rw [List.mem_singleton.1 he]

/-- A result without a tree is one that tells why there is none. -/
theorem exists_eq_unparsed {session : Session} {path text language : String} {dl : Option Deadline}
    (h : (a.analyzeWithin session path text language dl).result.parsed = false) :
    ∃ message timedOut, (a.analyzeWithin session path text language dl).result =
      a.unparsed path language (Text.countLines text) message timedOut := by
  rcases analyzeWithin_ends (a := a) session path text language dl with
    ⟨message, timedOut, -, hr⟩ | ⟨root, m, q, -, -, hr⟩
  · exact ⟨message, timedOut, hr⟩
  · rw [hr] at h
    cases h

/-- **The errors of a file name an analyzer**, the metrics or the engine. -/
theorem analyze_errors {session : Session} {path text : String} {given : Option String} {r : Analyzed}
    (h : a.analyze session path text given = .ok r) : ∀ e ∈ r.result.errors,
      e.component = "engine" ∨ e.component = "metrics" ∨ ∃ x ∈ a.registry.analyzers, e.component = x.name := by
  rcases analyze_ok h with ⟨-, hr⟩ | ⟨language, dl, -, -, rfl⟩
  · rw [hr]
    exact fun e he => by cases he
  rcases analyzeWithin_ends (a := a) session path text language dl with
    ⟨message, timedOut, -, hr⟩ | ⟨root, m, q, -, hfile, hr⟩
  · rw [hr]
    exact fun e he => .inl (unparsed_errors _ _ _ _ _ e he)
  · obtain ⟨es, dl', hpassed, hmetrics⟩ := (fileOf_cases path language _).2 m q hfile
    rw [hr]
    intro e he
    have heq : e ∈ q.errors := he
    rcases hmetrics with ⟨hq, -⟩ | ⟨why, -, -, -, hq⟩
    · rw [hq] at heq
      exact .inr (.inr (hpassed.component e heq))
    · rw [hq, List.mem_append, List.mem_singleton] at heq
      rcases heq with heq | rfl
      · exact .inr (.inr (hpassed.component e heq))
      · exact .inr (.inl rfl)

/-- **What grounded analyzers find names rules of the rule set**, or the rule of files without a tree. -/
theorem found_grounded {session : Session} {path text language : String} {fs : List Finding}
    (hx : ∀ x ∈ a.registry.analyzers, x.Grounded) (h : Found a session path text language dl fs) :
    ∀ f ∈ fs, a.rules.has f.rule.id = true ∨ f.rule.id = parseErrorId :=
  h.forall_findings (fun _ _ => .inr rfl) fun _ _ x hmem _ _ hgs f hf => .inl (hx x hmem _ _ _ _ hgs f hf)

end FileAnalyzer
end Run
end CodeReview
