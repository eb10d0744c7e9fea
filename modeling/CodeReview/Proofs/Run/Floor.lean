import CodeReview.Proofs.Run.Reordered
import CodeReview.Proofs.Run.Shapes
import CodeReview.Proofs.Run.Toggled
/-!
# The floor of severity

Under a floor an analysis goes as under the lowest one, and what it has found is sifted and numbered anew, so to set a floor
commutes with analyzing (`FileAnalyzer.floor_commutes`).  Under a higher floor a run goes as before, and its files are
reported without the findings that are too mild now (`Ran.sifted`), so what is severe was so before
(`Ran.severe_floored`).  The finding of a file without a tree is severe (`Ran.parseError_high`), and no floor takes it away.
-/
namespace CodeReview.Run

open Grammar (Session)

/-- That a result is another one with only those of its findings that are kept, aside from their identifiers. -/
structure Sifts (keep : Finding → Bool) (r r' : FileResult) : Prop where
  rest : r' = { r with findings := r'.findings }
  findings : r'.findings.map (·.withId "") = (r.findings.filter keep).map (·.withId "")

theorem severe_erased {fs gs : List Finding} (h : fs.map (·.withId "") = gs.map (·.withId "")) (t : Severity) :
    (∃ f ∈ fs, t ≤ f.severity) ↔ ∃ g ∈ gs, t ≤ g.severity := by
  have herased : ∀ xs : List Finding, (∃ x ∈ xs, t ≤ x.severity) ↔ ∃ y ∈ xs.map (·.withId ""), t ≤ y.severity := by
    intro xs
    constructor
    · rintro ⟨x, hx, hsevere⟩
      exact ⟨x.withId "", List.mem_map_of_mem hx, hsevere⟩
    · rintro ⟨y, hy, hsevere⟩
      obtain ⟨x, hx, rfl⟩ := List.mem_map.1 hy
      exact ⟨x, hx, hsevere⟩
  rw [herased fs, h, ← herased]

theorem sifted_findings {keep : Finding → Bool} {rs rs' : List FileResult} (h : List.Forall₂ (Sifts keep) rs rs') :
    (rs'.flatMap (·.findings)).map (·.withId "") = ((rs.flatMap (·.findings)).filter keep).map (·.withId "") := by
  induction h with
  | nil => rfl
  | cons hr _ ih =>
    simp only [List.flatMap_cons, List.map_append, List.filter_append]
    rw [hr.findings, ih]

namespace FileAnalyzer

variable {a : FileAnalyzer} {m : Severity}

def floored (a : FileAnalyzer) (m : Severity) : FileAnalyzer := { a with minSeverity := m }

theorem keeps_of_floored (hm : a.minSeverity ≤ m) {f : Finding} (h : (a.floored m).keeps f = true) : a.keeps f = true := by
  rw [keeps, Bool.or_eq_true, decide_eq_true_eq] at h ⊢
  rcases h with h | h
  · exact .inl (Nat.le_trans hm h)
  · exact .inr h

theorem finish_floored (hm : a.minSeverity ≤ m) (path : String) (fs : List Finding) :
    ((a.floored m).finish path fs).map (·.withId "") =
      ((a.finish path fs).filter (a.floored m).keeps).map (·.withId "") := by
  have hsome := numbered_erased path (p := (a.floored m).keeps) (fun _ _ => rfl) (fs.filter a.keeps) 1
  have hboth : ∀ f ∈ fs, ((a.floored m).keeps f && a.keeps f) = (a.floored m).keeps f := by
    intro f _
    cases hf : (a.floored m).keeps f with
    | false => rfl
    | true => rw [keeps_of_floored hm hf, Bool.and_true]
  rw [finish, finish, number_erased]
  refine Eq.trans ?_ hsome.symm
  rw [List.filter_filter, List.filter_congr hboth]

/-! ## Numbers -/

theorem number_erase (path : String) (fs : List Finding) : number path (fs.map (·.withId "")) = number path fs := by
  rw [number, List.zipIdx_map, List.map_map]
  rfl

theorem number_congr (path : String) {fs gs : List Finding} (h : fs.map (·.withId "") = gs.map (·.withId "")) :
    number path fs = number path gs := by
  rw [← number_erase path fs, h, number_erase]

theorem number_number (path : String) (fs : List Finding) : number path (number path fs) = number path fs :=
  number_congr path (number_erased path fs)

theorem analyze_numbered {session : Session} {path text : String} {given : Option String} {r : Analyzed}
    (h : a.analyze session path text given = .ok r) : number path r.result.findings = r.result.findings := by
  rcases analyze_ok h with ⟨-, hempty⟩ | ⟨language, dl, -, -, rfl⟩
  · rw [hempty]
    rfl
  · obtain ⟨fs, -, -, hfindings⟩ := analyzeWithin_found (a := a) session path text language dl
    rw [hfindings, finish, number_number]

/-! ## Files -/

section

variable (hm : a.minSeverity ≤ m)

include hm

theorem unparsed_sifts (path language : String) (lines : Nat) (message : String) (timedOut : Bool) :
    Sifts (a.floored m).keeps (a.unparsed path language lines message timedOut)
      ((a.floored m).unparsed path language lines message timedOut) :=
  ⟨rfl, finish_floored hm path [a.unparsedFinding path message timedOut]⟩

theorem report_sifts (path language : String) (lines : Nat) (out : Except Failure (Syntax.Metrics × Passes)) :
    Sifts (a.floored m).keeps (a.report path language lines out) ((a.floored m).report path language lines out) := by
  cases out with
  | error why => exact unparsed_sifts hm path language lines why.message true
  | ok out => exact ⟨rfl, finish_floored hm path out.2.findings⟩

/-- **A file is analyzed under a higher floor as before**, and reported without what is too mild. -/
theorem analyzeWithin_sifts (session : Session) (path text language : String) (dl : Option Syntax.Deadline) :
    Sifts (a.floored m).keeps (a.analyzeWithin session path text language dl).result
      ((a.floored m).analyzeWithin session path text language dl).result := by
  have hparse : (a.floored m).parse = a.parse := rfl
  have hfile : (a.floored m).fileOf = a.fileOf := rfl
  rw [analyzeWithin_result, analyzeWithin_result, hparse, hfile]
  cases (a.parse session path text language dl).1.outcome with
  | error e =>
    dsimp only
    rw [parseFailed_eq, parseFailed_eq]
    exact unparsed_sifts hm path language _ e.message e.isTimeout
  | ok root => exact report_sifts hm path language _ _

/-- Both analyses fail alike, or the one under the higher floor reports the same without what is too mild. -/
theorem analyze_sifts (session : Session) (path text : String) (given : Option String) :
    (∃ why, a.analyze session path text given = .error why ∧ (a.floored m).analyze session path text given = .error why) ∨
      ∃ r r', a.analyze session path text given = .ok r ∧ (a.floored m).analyze session path text given = .ok r' ∧
        Sifts (a.floored m).keeps r.result r'.result := by
  have hbudget : (a.floored m).budget = a.budget := rfl
  cases hl : languageOf path given with
  | none => exact .inr ⟨_, _, by rw [analyze, hl], by rw [analyze, hl], rfl, rfl⟩
  | some language =>
    cases hb : a.budget with
    | error why =>
      exact .inl ⟨why, analyze_fails_iff.2 ⟨⟨language, hl⟩, hb⟩,
        analyze_fails_iff.2 ⟨⟨language, hl⟩, hbudget.trans hb⟩⟩
    | ok dl =>
      exact .inr ⟨_, _, analyze_of_budget hl hb session text, analyze_of_budget hl (hbudget.trans hb) session text,
        analyzeWithin_sifts hm session path text language dl⟩

/-! ## Entries one after the other -/

theorem contribute_sifts (session : Session) (e : Entry) :
    (contribute (a.floored m).known session e).2 = (contribute a.known session e).2 ∧
    List.Forall₂ (Sifts (a.floored m).keeps) (contribute a.known session e).1.files
      (contribute (a.floored m).known session e).1.files := by
  unfold contribute
  cases Language.ofPath? e.path with
  | none => exact ⟨rfl, .nil⟩
  | some l =>
    cases e.read with
    | error u => exact ⟨rfl, .nil⟩
    | ok text =>
      dsimp only
      have hbudget : (a.floored m).budget = a.budget := rfl
      cases hb : a.budget with
      | error why =>
        rw [known_of_no_budget hb, known_of_no_budget (hbudget.trans hb)]
        exact ⟨rfl, .nil⟩
      | ok dl =>
        rw [known_of_budget hb, known_of_budget (hbudget.trans hb)]
        refine ⟨?_, .cons (analyzeWithin_sifts hm session e.path text l.name dl) .nil⟩
        dsimp only
        rw [analyzeWithin_session, analyzeWithin_session]
        rfl

theorem contributions_sift : ∀ (entries : List Entry) (session : Session),
    List.Forall₂ (Sifts (a.floored m).keeps) ((contributions a.known session entries).flatMap (·.files))
      ((contributions (a.floored m).known session entries).flatMap (·.files))
  | [], _ => .nil
  | e :: rest, session => by
    obtain ⟨hsession, hfiles⟩ := contribute_sifts hm session e
    rw [contributions, contributions, hsession, List.flatMap_cons, List.flatMap_cons]
    exact List.rel_append hfiles (contributions_sift rest _)

end

/-- **The floor of severity comes after everything else.**  Under any floor a file has the result that it has under the
lowest, but for its findings: those stay that are at or above the floor or tell of a file without a tree, in their order,
and their identifiers end in the numbers from one.  So a higher floor takes findings away and adds none.  Without a time budget
there is a result under every floor. -/
theorem floor_commutes (a : FileAnalyzer) (session : Session) (path text : String) (given : Option String) (s : Severity) :
    let run (m : Severity) := (a.floored m).analyze session path text given
    (a.timeout.filter (!·.isZero) = none → ∃ r, run s = .ok r) ∧
    (run s).map (·.result) = (run .low).map (fun r => { r.result with
      findings := (r.result.findings.filter fun f => decide (s ≤ f.severity) || f.rule.id == parseErrorId).mapIdx fun i f =>
        { f with id := f.rule.id ++ ":" ++ path ++ ":" ++ toString f.location.line ++ ":" ++ toString (i + 1) } }) ∧
    ∀ s' r r', s ≤ s' → run s = .ok r → run s' = .ok r' →
      (r'.result.findings.map fun f => { f with id := "" }).Sublist (r.result.findings.map fun f => { f with id := "" }) := by
  intro run
  have hlowest : Severity.low ≤ s := by cases s <;> decide
  refine ⟨fun ht => ?_, ?_, fun s' r r' hs hr hr' => ?_⟩
  · have hbudget : (a.floored s).budget = .ok none := by
      rw [budget, floored, ht]
      rfl
    cases hrun : run s with
    | ok r => exact ⟨r, rfl⟩
    | error why =>
      obtain ⟨-, hfails⟩ := analyze_fails_iff.1 hrun
      rw [hbudget] at hfails
      cases hfails
  · rcases analyze_sifts (a := a.floored .low) hlowest session path text given with
      ⟨why, hlow, hfails⟩ | ⟨low, r, hlow, hr, hsifts⟩
    · have hboth : run .low = .error why ∧ run s = .error why := ⟨hlow, hfails⟩
      rw [hboth.1, hboth.2]
      rfl
    · have hboth : run .low = .ok low ∧ run s = .ok r := ⟨hlow, hr⟩
      have hfindings : r.result.findings = number path (low.result.findings.filter (a.floored s).keeps) := by
        rw [← analyze_numbered hr]
        exact number_congr path hsifts.findings
      rw [number_eq_mapIdx] at hfindings
      have hresult : r.result = { low.result with findings := r.result.findings } := hsifts.rest
      rw [hboth.1, hboth.2, Except.map, Except.map, hresult, hfindings]
      rfl
  · rcases analyze_sifts (a := a.floored s) hs session path text given with ⟨why, hfails, -⟩ | ⟨x, x', hx, hx', hsifts⟩
    · have hboth : run s = .error why := hfails
      rw [hr] at hboth
      cases hboth
    · obtain rfl : r = x := Except.ok.inj (hr.symm.trans hx)
      obtain rfl : r' = x' := Except.ok.inj (hr'.symm.trans hx')
      have hsame : (r'.result.findings.map fun f => { f with id := "" }) =
          (r.result.findings.filter (a.floored s').keeps).map fun f => { f with id := "" } := hsifts.findings
      rw [hsame]
      exact (List.filter_sublist ..).map _

/-- A tree that names `innerHTML` and calls `eval`, in turn. -/
def mixedTree : Syntax.Node :=
  let inner (line : Int) : Syntax.Node :=
    .mk ⟨.member, "member_expression", line, 1, line, 10, some "innerHTML", none, none⟩ none []
  let eval (line : Int) : Syntax.Node := .mk ⟨.call, "call_expression", line, 1, line, 10, some "eval", none, none⟩ none []
  .mk ⟨.block, "program", 1, 1, 4, 10, none, none, none⟩ none [inner 1, eval 2, inner 3, eval 4]

def mixedFile : FileAnalyzer where
  parse := fun session _ _ _ deadline => (⟨.ok mixedTree, session, []⟩, deadline)
  timeout := none

/-- The second and the fourth finding of such a file are the first and the second under the highest floor. -/
theorem mixed_numbered_anew : ∃ r r', (mixedFile.floored .low).analyze {} "a.js" "" none = .ok r ∧
    (mixedFile.floored .critical).analyze {} "a.js" "" none = .ok r' ∧
    r.result.findings.map (·.id) = ["no-innerHTML:a.js:1:1", "no-eval:a.js:2:2", "no-innerHTML:a.js:3:3", "no-eval:a.js:4:4"] ∧
    r'.result.findings.map (·.id) = ["no-eval:a.js:2:1", "no-eval:a.js:4:2"] := by
  obtain ⟨hlow, -, -⟩ := floor_commutes mixedFile {} "a.js" "" none .low
  obtain ⟨hcritical, hsame, -⟩ := floor_commutes mixedFile {} "a.js" "" none .critical
  obtain ⟨r, hr⟩ := hlow rfl
  obtain ⟨r', hr'⟩ := hcritical rfl
  rw [hr, hr'] at hsame
  have hfindings := congrArg FileResult.findings (Except.ok.inj hsame)
  have hrun : ((mixedFile.floored .low).analyze {} "a.js" "" none).toOption.map (fun r =>
      (r.result.findings.map (·.id),
        ((r.result.findings.filter fun f => decide (.critical ≤ f.severity) || f.rule.id == parseErrorId).mapIdx fun i f =>
          { f with id := f.rule.id ++ ":" ++ "a.js" ++ ":" ++ toString f.location.line ++ ":" ++ toString (i + 1) }).map
            (·.id))) =
      some (["no-innerHTML:a.js:1:1", "no-eval:a.js:2:2", "no-innerHTML:a.js:3:3", "no-eval:a.js:4:4"],
        ["no-eval:a.js:2:1", "no-eval:a.js:4:2"]) := by
    decide +kernel
  dsimp only at hr hr' hfindings
  rw [hr] at hrun
  obtain ⟨hids, hanew⟩ := Prod.mk.inj (Option.some.inj hrun)
  refine ⟨r, r', hr, hr', hids, ?_⟩
  rw [hfindings]
  exact hanew

/-! ## Findings of files without a tree -/

theorem found_parseError {session : Session} {path text language : String} {dl : Option Syntax.Deadline}
    {fs : List Finding} (hb : a.registry = .builtin) (h : Found a session path text language dl fs) :
    ∀ f ∈ fs, f.rule.id = parseErrorId → f.severity = .high := by
  refine h.forall_findings (fun _ _ _ => rfl) fun root _ x hx dl gs hgs f hf hid => ?_
  rw [hb] at hx
  exact absurd hid (Analyzer.builtin_spares hx hgs f hf)

end FileAnalyzer

/-! ## Runs -/

section

variable {σ σ' : Type} {o : Observers σ} {o' : Observers σ'} {a : FileAnalyzer} {total total' : Nat} {entries : List Entry}
  {st st' : RunState} {out : Outcome σ} {out' : Outcome σ'} {r r' : RepositoryResult} {xs xs' : List Account}
  {progress sink progress' sink' : Option Failure}

/-- **Under a higher floor the files of a run are the same**, without the findings that are too mild. -/
theorem Ran.sifted {m : Severity} (hm : a.minSeverity ≤ m) (h : Ran o a.known total entries st out r xs progress sink)
    (h' : Ran o' (a.floored m).known total' entries st' out' r' xs' progress' sink') :
    List.Forall₂ (Sifts (a.floored m).keeps) r.files r'.files := by
  rw [h.files, h'.files]
  exact FileAnalyzer.contributions_sift hm entries {}

/-- **What is severe under a higher floor is what was severe and is kept.** -/
theorem Ran.severe_floored {m : Severity} (hm : a.minSeverity ≤ m)
    (h : Ran o a.known total entries st out r xs progress sink)
    (h' : Ran o' (a.floored m).known total' entries st' out' r' xs' progress' sink') (t : Severity) :
    (∃ f ∈ r'.files, ∃ x ∈ f.findings, t ≤ x.severity) ↔
      ∃ f ∈ r.files, ∃ x ∈ f.findings, (a.floored m).keeps x = true ∧ t ≤ x.severity := by
  have hsevere := severe_erased (sifted_findings (h.sifted hm h')) t
  simp only [List.mem_filter, List.mem_flatMap] at hsevere
  constructor
  · rintro ⟨f, hf, x, hx, hxt⟩
    obtain ⟨y, ⟨⟨g, hg, hy⟩, hkeep⟩, hyt⟩ := hsevere.1 ⟨x, ⟨f, hf, hx⟩, hxt⟩
    exact ⟨g, hg, y, hy, hkeep, hyt⟩
  · rintro ⟨f, hf, x, hx, hkeep, hxt⟩
    obtain ⟨y, ⟨g, hg, hy⟩, hyt⟩ := hsevere.2 ⟨x, ⟨⟨f, hf, hx⟩, hkeep⟩, hxt⟩
    exact ⟨g, hg, y, hy, hyt⟩

theorem Ran.parseError_high (hb : a.registry = .builtin) (h : Ran o a.known total entries st out r xs progress sink) :
    ∀ f ∈ r.files, ∀ x ∈ f.findings, x.rule.id = parseErrorId → x.severity = .high := by
  intro f hf x hx hid
  rw [h.files_eq] at hf
  obtain ⟨y, hy, hfy⟩ := List.mem_flatMap.1 hf
  obtain ⟨-, session, text, language, dl, fs, hfs, hfindings⟩ :=
    FileAnalyzer.contribution_found (h.contribution_of y hy) hfy
  rw [hfindings] at hx
  obtain ⟨g, hg, n, rfl⟩ := FileAnalyzer.exists_of_mem_finish hx
  exact FileAnalyzer.found_parseError hb hfs g hg hid

end

end CodeReview.Run
