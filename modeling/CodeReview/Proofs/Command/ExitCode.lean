import CodeReview.Proofs.Command.Actions
import CodeReview.Proofs.Files.Alike
import CodeReview.Proofs.Run.Floor
/-!
# The exit code of an analysis

Whether an analysis fails is up to the findings of its result, and to nothing else that it does on the way
(`exit_code_by_findings`).  Under a higher floor of severity it reaches its report all the same (`report_floored`), since
what can be written is not up to what it is (`Action.Mirrors`).
-/
namespace CodeReview.Command

open CodeReview.Command.Action

variable {m : Machine} {s : Settings} {st st' : State} {selection : Selection} {folder : Place} {findings : Option Path}
  {r : RepositoryResult}

/-! ## Actions on trees of one shape -/

/-- That where one thing can be done another one can be done, and that trees of one shape keep having one. -/
def Action.Mirrors (x x' : Action Unit) : Prop :=
  ∀ ⦃st st' st₁ : State⦄, st.files.Alike st'.files → Ends x st () st₁ →
    ∃ st₁', Ends x' st' () st₁' ∧ st₁.files.Alike st₁'.files

namespace Action

theorem Mirrors.andThen {x x' y y' : Action Unit} (hx : Mirrors x x') (hy : Mirrors y y') :
    Mirrors (x >>= fun _ => y) (x' >>= fun _ => y') := by
  intro st st' st₂ hfiles h
  obtain ⟨⟨⟩, st₁, hx₁, hy₁⟩ := bind_ends.1 h
  obtain ⟨st₁', hx₁', hfiles₁⟩ := hx hfiles hx₁
  obtain ⟨st₂', hy₁', hfiles₂⟩ := hy hfiles₁ hy₁
  exact ⟨st₂', bind_ends.2 ⟨(), st₁', hx₁', hy₁'⟩, hfiles₂⟩

theorem mirrors_modify (f f' : State → State) (hf : ∀ st, (f st).files = st.files) (hf' : ∀ st, (f' st).files = st.files) :
    Mirrors (modify f) (modify f') := by
  intro st st' st₁ hfiles h
  obtain rfl := modify_ends.1 h
  refine ⟨f' st', modify_ends.2 rfl, ?_⟩
  rwa [hf, hf']

theorem mirrors_pure : Mirrors (pure ()) (pure ()) := by
  intro st st' st₁ hfiles h
  obtain ⟨-, rfl⟩ := pure_ends.1 h
  exact ⟨st', pure_ends.2 ⟨rfl, rfl⟩, hfiles⟩

theorem mirrors_change {path : Path} {f f' : Files → Except FileError Files}
    (hf : ∀ {fs fs' out : Files}, fs.Alike fs' → f fs = .ok out → ∃ out', f' fs' = .ok out' ∧ out.Alike out') :
    Mirrors (change path f) (change path f') := by
  intro st st' st₁ hfiles h
  obtain ⟨out, hout, rfl⟩ := change_ends.1 h
  obtain ⟨out', hout', halike⟩ := hf hfiles hout
  exact ⟨_, change_ends.2 ⟨out', hout', rfl⟩, halike⟩

theorem mirrors_makeFolders (m : Machine) (path : Path) : Mirrors (makeFolders m path) (makeFolders m path) :=
  mirrors_change fun h ho => h.makeFolders m.here path ho

theorem mirrors_writeText (m : Machine) (path : Path) (text text' : String) :
    Mirrors (writeText m path text) (writeText m path text') :=
  mirrors_change fun h ho => h.write m.here path _ ho

theorem mirrors_appendText (m : Machine) (path : Path) (text text' : String) :
    Mirrors (appendText m path text) (appendText m path text') :=
  mirrors_change fun h ho => h.append m.here path _ ho

theorem mirrors_tellAll (rs rs' : List Log.Record) : Mirrors (tellAll rs) (tellAll rs') :=
  mirrors_modify _ _ (fun _ => rfl) fun _ => rfl

end Action

/-- **A report can be delivered where another one can be.** -/
theorem deliver_mirrors (m : Machine) (output : Option Path) (text text' : String) :
    Mirrors (deliver m output text) (deliver m output text') := by
  cases output with
  | none => exact mirrors_modify _ _ (fun _ => rfl) fun _ => rfl
  | some path =>
    have htell := mirrors_tellAll [Log.info Log.root ("Report written to: " ++ path.toString)]
    exact (mirrors_makeFolders m path.parent).andThen ((mirrors_writeText m path text text').andThen (htell _))

theorem afterRun_mirrors (m : Machine) (findings : Option Path) (out out' : Run.Outcome Sink.Watch) :
    Mirrors (afterRun m findings out) (afterRun m findings out') := by
  have hclock := mirrors_modify (fun st => { st with clock := out.state.clock })
    (fun st => { st with clock := out'.state.clock }) (fun _ => rfl) fun _ => rfl
  have htell := mirrors_tellAll out.log out'.log
  cases findings with
  | none => exact hclock.andThen (htell.andThen mirrors_pure)
  | some path => exact hclock.andThen (htell.andThen (mirrors_appendText m path out.state.text out'.state.text))

/-! ## What is printed -/

theorem change_out {path : Path} {f : Files → Except FileError Files} {u : Unit} (h : Ends (change path f) st u st') :
    st'.out = st.out := by
  obtain ⟨files, -, rfl⟩ := change_ends.1 h
  rfl

theorem openFindings_out {sink : Option Sink.JsonLines} (h : Ends (findings.mapM (openFindings m)) st sink st') :
    st'.out = st.out := by
  cases findings with
  | none =>
    obtain ⟨-, rfl⟩ := pure_ends.1 h
    rfl
  | some path =>
    obtain ⟨file, hfile, -⟩ := map_ends.1 h
    unfold openFindings at hfile
    simp only [bind_ends] at hfile
    obtain ⟨_, st₁, hfolders, _, st₂, happend, hpure⟩ := hfile
    obtain ⟨-, rfl⟩ := pure_ends.1 hpure
    exact (change_out happend).trans (change_out hfolders)

theorem afterRun_out {out : Run.Outcome Sink.Watch} {u : Unit} (h : Ends (afterRun m findings out) st u st') :
    st'.out = st.out := by
  unfold afterRun at h
  simp only [bind_ends, modify_ends, tellAll_ends] at h
  obtain ⟨_, _, rfl, _, _, rfl, h⟩ := h
  cases findings with
  | none =>
    obtain ⟨-, rfl⟩ := pure_ends.1 h
    rfl
  | some path =>
    have happended : Ends (appendText m path out.state.text) _ u st' := h
    have hout := change_out happended
    exact hout

/-! ## The run over a folder -/

def fileAnalyzer (m : Machine) (s : Settings) : Run.FileAnalyzer :=
  { s.analyzer m.host with clock := m.timer, elapsed := m.elapsed }

def entriesOf (files : Files) (folder : Place) (selection : Selection) : List Run.Entry :=
  Run.selected selection (files.listing folder (some selection) "utf-8").entries

/-- That a result is that of a run over the files below a folder, all of which have been gone through. -/
def RanOver (m : Machine) (s : Settings) (files : Files) (folder : Place) (selection : Selection)
    (out : Run.Outcome Sink.Watch) (r : RepositoryResult) : Prop :=
  ∃ xs progress sink, Run.Ran Sink.Watch.observers (fileAnalyzer m s).known (entriesOf files folder selection).length
    (entriesOf files folder selection) .completed out r xs progress sink

section

variable {files : Files} {out out' : Run.Outcome Sink.Watch} {r' : RepositoryResult} {floor : Severity}

theorem RanOver.returned (h : RanOver m s files folder selection out r) : out.result = .ok r := by
  obtain ⟨xs, progress, sink, hran⟩ := h
  exact hran.returned

theorem RanOver.state (h : RanOver m s files folder selection out r) : r.state = .completed := by
  obtain ⟨xs, progress, sink, hran⟩ := h
  exact hran.state

theorem RanOver.files_eq (h : RanOver m s files folder selection out r) :
    r.files = (Run.contributions (fileAnalyzer m s).known {} (entriesOf files folder selection)).flatMap (·.files) := by
  obtain ⟨xs, progress, sink, hran⟩ := h
  exact hran.files

theorem RanOver.counted (h : RanOver m s files folder selection out r) : r.Counted := by
  obtain ⟨xs, progress, sink, hran⟩ := h
  exact hran.finished.toCounted

theorem RanOver.parseError_high (h : RanOver m s files folder selection out r) :
    ∀ f ∈ r.files, ∀ x ∈ f.findings, x.rule.id = parseErrorId → x.severity = .high := by
  obtain ⟨xs, progress, sink, hran⟩ := h
  exact hran.parseError_high rfl

theorem RanOver.severe_floored (hm : s.minSeverity ≤ floor) (h : RanOver m s files folder selection out r)
    (h' : RanOver m { s with minSeverity := floor } files folder selection out' r') (t : Severity) :
    (∃ f ∈ r'.files, ∃ x ∈ f.findings, t ≤ x.severity) ↔
      ∃ f ∈ r.files, ∃ x ∈ f.findings, ((fileAnalyzer m s).floored floor).keeps x = true ∧ t ≤ x.severity := by
  obtain ⟨xs, progress, sink, hran⟩ := h
  obtain ⟨xs', progress', sink', hran'⟩ := h'
  have hfloor : (fileAnalyzer m s).minSeverity ≤ floor := hm
  exact hran.severe_floored hfloor hran' t

end

theorem watchedRun_ran (m : Machine) (s : Settings) (selection : Selection) (folder : Place)
    (sink : Option Sink.JsonLines) (st : State) :
    ∃ r, RanOver m s st.files folder selection (watchedRun m s selection folder sink st) r :=
  Run.repository_completed (fileAnalyzer m s).known Sink.Watch.observers selection
    { findings := sink, clock := st.clock } rfl

/-- **A folder is analyzed under another floor where it is analyzed at all**, and the same files are gone through. -/
theorem analyzeFolder_floored (floor : Severity) (h : Ends (analyzeFolder m s selection folder findings) st r st') :
    ∃ files out, RanOver m s files folder selection out r ∧ st'.out = st.out ∧
      ∃ r' st'' out', Ends (analyzeFolder m { s with minSeverity := floor } selection folder findings) st r' st'' ∧
        RanOver m { s with minSeverity := floor } files folder selection out' r' ∧ st'.files.Alike st''.files := by
  obtain ⟨sink, st₁, hopen, hafter, hr⟩ := analyzeFolder_ends.1 h
  obtain ⟨q, hq⟩ := watchedRun_ran m s selection folder sink st₁
  obtain ⟨r', hr'⟩ := watchedRun_ran m { s with minSeverity := floor } selection folder sink st₁
  obtain rfl : q = r := Except.ok.inj (hq.returned.symm.trans hr)
  obtain ⟨st'', hafter', hfiles⟩ := afterRun_mirrors m findings _
    (watchedRun m { s with minSeverity := floor } selection folder sink st₁) (Files.Alike.refl st₁.files) hafter
  exact ⟨st₁.files, _, hq, (afterRun_out hafter).trans (openFindings_out hopen), r', st'', _,
    analyzeFolder_ends.2 ⟨sink, st₁, hopen, hafter', hr'.returned⟩, hr', hfiles⟩

/-- **A run that reaches its report reaches it under another floor**, by the same plan. -/
theorem report_floored {path : Path} {c : Choices} {plan : Plan} (floor : Severity)
    (h : Ends (report m s path c) st (plan, r) st') :
    ∃ files out, RanOver m s files (Files.placeOf m.here path) plan.selection out r ∧
      ∃ r' st'' out', Ends (report m { s with minSeverity := floor } path c) st (plan, r') st'' ∧
        RanOver m { s with minSeverity := floor } files (Files.placeOf m.here path) plan.selection out' r' := by
  obtain ⟨hplan, hfolder, hruns, st₁, hresult, hdeliver⟩ := report_ends.1 h
  obtain ⟨files, out, hran, -, r', st₁', out', hresult', hran', hfiles⟩ := analyzeFolder_floored floor hresult
  let text (q : RepositoryResult) := Report.render plan.format (Files.pathOf (Files.placeOf m.here path)).name q
  have htold : (st₁.told (Report.renderLog plan.format (text r))).files.Alike
      (st₁'.told (Report.renderLog plan.format (text r'))).files := by
    rwa [State.told_files, State.told_files]
  obtain ⟨st'', hdeliver', -⟩ := deliver_mirrors m plan.output (text r) (text r') htold hdeliver
  exact ⟨files, out, hran, r', st'', out', report_ends.2 ⟨hplan, hfolder, hruns, st₁', hresult', hdeliver'⟩, hran'⟩

/-- A run that writes no files reaches its report, wherever it can begin. -/
theorem report_reached (m : Machine) (path : Path) (st : State) {c : Choices} {plan : Plan} (hplan : Plan.make s c = .ok plan)
    (hfolder : Ends (demandFolder m path) st () st) (hruns : (Preflight.checkRuntime m.host true).available = true)
    (hlog : c.findings = none) (hout : plan.output = none) :
    ∃ r st' out, Ends (report m s path c) st (plan, r) st' ∧
      RanOver m s st.files (Files.placeOf m.here path) plan.selection out r := by
  let start := st.told [Log.info Log.root ("Analyzing repository: " ++ Files.placeText (Files.placeOf m.here path))]
  obtain ⟨r, hran⟩ := watchedRun_ran m s plan.selection (Files.placeOf m.here path) none start
  have hafter : ∃ st₁,
      Ends (afterRun m none (watchedRun m s plan.selection (Files.placeOf m.here path) none start)) start () st₁ := by
    simp only [afterRun, bind_ends, modify_ends, tellAll_ends, pure_ends]
    exact ⟨_, (), _, rfl, (), _, rfl, trivial, rfl⟩
  obtain ⟨st₁, hafter⟩ := hafter
  have hresult := analyzeFolder_ends.2 ⟨none, start, pure_ends.2 ⟨rfl, rfl⟩, hafter, hran.returned⟩
  let text := Report.render plan.format (Files.pathOf (Files.placeOf m.here path)).name r
  have hdeliver : ∃ st₂, Ends (deliver m plan.output text) (st₁.told (Report.renderLog plan.format text)) () st₂ := by
    rw [hout]
    exact ⟨_, print_ends.2 rfl⟩
  obtain ⟨st₂, hdeliver⟩ := hdeliver
  rw [← hlog] at hresult
  exact ⟨r, st₂, _, report_ends.2 ⟨hplan, hfolder, hruns, st₁, hresult, hdeliver⟩, hran⟩

theorem report_out {path : Path} {c : Choices} {plan : Plan} (h : Ends (report m s path c) st (plan, r) st')
    (hoff : plan.output = none) :
    st'.out = st.out ++ Report.render plan.format (Files.pathOf (Files.placeOf m.here path)).name r := by
  obtain ⟨-, -, -, st₁, hresult, hdeliver⟩ := report_ends.1 h
  obtain ⟨-, -, -, hout, -⟩ := analyzeFolder_floored s.minSeverity hresult
  rw [hoff] at hdeliver
  obtain rfl := print_ends.1 hdeliver
  dsimp only
  rw [State.told_out, hout, State.told_out]

/-! ## The code -/

/-- The number of findings of a severity that the summary of a report as a table gives. -/
def issuesIn (report : Value) (t : Severity) : Option Int :=
  match (report.get? "summary").bind (·.get? (t.name ++ "_issues")) with
  | some (.int n) => some n
  | _ => none

theorem issuesIn_titled (title : String) (r : RepositoryResult) (t : Severity) :
    issuesIn (Report.titled title r) t = some (r.tally.count t) := by
  cases t <;> rfl

theorem exitCode_toNat (hstate : r.state = .completed) (hcounted : r.Counted) (t : Severity) :
    (exitCode r t).toNat = if ∃ f ∈ r.files, ∃ x ∈ f.findings, t ≤ x.severity then 2 else 0 := by
  have hpos := hcounted.atOrAbove_pos_iff t
  rw [exitCode, hstate, if_neg (by decide)]
  by_cases h : 0 < r.tally.atOrAbove t
  · rw [if_pos h, if_pos (hpos.1 h)]
    rfl
  · rw [if_neg h, if_neg fun hsevere => h (hpos.2 hsevere)]
    rfl

theorem threshold_of_make {c : Choices} {plan : Plan} (h : Plan.make s c = .ok plan) :
    Plan.thresholdOf s c = .ok plan.threshold := by
  unfold Plan.make at h
  cases hf : Plan.formatOf s c with
  | error e => rw [hf] at h; cases h
  | ok format =>
    cases ht : Plan.thresholdOf s c with
    | error e => rw [hf, ht] at h; cases h
    | ok t =>
      cases ho : Plan.outputOf s c with
      | error e => rw [hf, ht, ho] at h; cases h
      | ok output =>
        rw [hf, ht, ho] at h
        cases h
        rfl

theorem threshold_chosen {c : Choices} {plan : Plan} (h : Plan.make s c = .ok plan) {name : String}
    (hname : c.failOn = some name) (hne : name ≠ "") : Severity.read name = .ok plan.threshold := by
  have ht := threshold_of_make h
  have hchosen : Plan.chosen c.failOn = some name := by
    rw [hname, Plan.chosen, Option.filter_some, if_pos (bne_iff_ne.2 hne)]
  rw [Plan.thresholdOf, hchosen] at ht
  cases hread : Severity.read name with
  | error e =>
    simp only [hread, Except.mapError, reduceCtorEq] at ht
  | ok t =>
    simp only [hread, Except.mapError, Except.ok.injEq] at ht
    rw [ht]

theorem threshold_default {c : Choices} {plan : Plan} (h : Plan.make s c = .ok plan)
    (hnone : c.failOn = none ∨ c.failOn = some "") : plan.threshold = s.failOn := by
  have ht := threshold_of_make h
  have hchosen : Plan.chosen c.failOn = none := by
    rcases hnone with hnone | hempty
    · rw [hnone]
      rfl
    · rw [hempty]
      rfl
  rw [Plan.thresholdOf, hchosen] at ht
  exact (Except.ok.inj ht).symm

/-- **The exit code of an analysis is decided by its findings.**  What ends with an exit code has reached its report, and
then the code is 2 if a file has a finding at or above the severity that makes the run fail, and 0 if none has.  That
severity is the one of the command line if there is one, and else that of the settings.

The tally adds up the findings at or above any severity, which are no more if more is asked for, and the counts in the
report as JSON come to the same decision.  A higher floor of severity can turn a 2 into a 0 and nothing else, and it turns
none into a 0 where a file has no tree and the severity that makes the run fail is high at most. -/
theorem exit_code_by_findings (m : Machine) (s : Settings) (path : Path) (c : Choices) (st : State) :
    (∀ code st', Ends (analyze m s path c) st code st' → ∃ plan r st₁, Ends (report m s path c) st (plan, r) st₁) ∧
    ∀ plan r st₁, Ends (report m s path c) st (plan, r) st₁ → ∃ code st',
      Ends (analyze m s path c) st code st' ∧
      code.toNat = (if ∃ f ∈ r.files, ∃ x ∈ f.findings, plan.threshold ≤ x.severity then 2 else 0) ∧
      (∀ name, c.failOn = some name → name ≠ "" → Severity.read name = .ok plan.threshold) ∧
      (c.failOn = none ∨ c.failOn = some "" → plan.threshold = s.failOn) ∧
      (∀ t, r.tally.atOrAbove t = (r.files.flatMap (·.findings)).countP fun x => t ≤ x.severity) ∧
      (∀ t u, t ≤ u → r.tally.atOrAbove u ≤ r.tally.atOrAbove t) ∧
      (plan.output = none →
        st₁.out = st.out ++ Report.render plan.format (Files.pathOf (Files.placeOf m.here path)).name r) ∧
      (∀ title, ∃ counts : Severity → Int, (∀ t, issuesIn (Report.titled title r) t = some (counts t)) ∧
        (code.toNat = 2 ↔ 0 < Tally.sumOver fun t => if plan.threshold ≤ t then counts t else 0)) ∧
      ∀ floor, s.minSeverity ≤ floor → ∃ code' st'',
        Ends (analyze m { s with minSeverity := floor } path c) st code' st'' ∧
        (code'.toNat = code.toNat ∨ code.toNat = 2 ∧ code'.toNat = 0) ∧
        ((∃ f ∈ r.files, ∃ x ∈ f.findings, x.rule.id = parseErrorId) → plan.threshold ≤ .high →
          code'.toNat = code.toNat) := by
  constructor
  · intro code st' h
    obtain ⟨plan, r, st₁, hreport, -⟩ := analyze_ends.1 h
    exact ⟨plan, r, st₁, hreport⟩
  intro plan r st₁ hreport
  obtain ⟨files, out, hran, -⟩ := report_floored s.minSeverity hreport
  have hcode := exitCode_toNat hran.state hran.counted plan.threshold
  have hplan := (report_ends.1 hreport).1
  refine ⟨_, _, analyze_ends.2 ⟨plan, r, st₁, hreport, rfl, rfl⟩, hcode, fun _ => threshold_chosen hplan,
    threshold_default hplan, fun t => ?_, fun t u => hran.counted.atOrAbove_anti, report_out hreport, fun title => ?_,
    fun floor hm => ?_⟩
  · rw [hran.counted.atOrAbove, hran.counted.findings]
  · refine ⟨r.tally.count, issuesIn_titled title r, ?_⟩
    have hpos := hran.counted.atOrAbove_pos_iff plan.threshold
    rw [hcode, ← Tally.atOrAbove, hpos]
    split
    · rename_i hsevere
      exact ⟨fun _ => hsevere, fun _ => rfl⟩
    · rename_i hnone
      exact ⟨fun h => (by cases h), fun h => absurd h hnone⟩
  · obtain ⟨files, out, hran, r', st₂, out', hreport', hran'⟩ := report_floored floor hreport
    have hcode' := exitCode_toNat hran'.state hran'.counted plan.threshold
    have hsevere := hran.severe_floored hm hran' plan.threshold
    refine ⟨_, _, analyze_ends.2 ⟨plan, r', st₂, hreport', rfl, rfl⟩, ?_, ?_⟩
    · rw [hcode, hcode']
      by_cases h' : ∃ f ∈ r'.files, ∃ x ∈ f.findings, plan.threshold ≤ x.severity
      · obtain ⟨f, hf, x, hx, -, hxt⟩ := hsevere.1 h'
        rw [if_pos h', if_pos ⟨f, hf, x, hx, hxt⟩]
        exact .inl rfl
      · rw [if_neg h']
        split
        · exact .inr ⟨rfl, rfl⟩
        · exact .inl rfl
    · rintro ⟨f, hf, x, hx, hid⟩ hhigh
      have hxt : plan.threshold ≤ x.severity := by
        rw [hran.parseError_high f hf x hx hid]
        exact hhigh
      have hkeeps : ((fileAnalyzer m s).floored floor).keeps x = true := by
        rw [Run.FileAnalyzer.keeps, hid, beq_self_eq_true, Bool.or_true]
      have h' := hsevere.2 ⟨f, hf, x, hx, hkeeps, hxt⟩
      rw [hcode, hcode', if_pos h', if_pos ⟨f, hf, x, hx, hxt⟩]

/-- A machine whose grammars make no tree of any text. -/
def treeless : Machine where
  here := []
  host := { Run.FileAnalyzer.oneNode with tree := fun _ _ => .error (.raised "RuntimeError" "no tree") }
  env := fun _ => none

def unselective : Settings := { selection := { exclude := [] } }

def oneFile : State := { files := ⟨[(["a.py"], .file [120])]⟩, clock := .ticking ⟨0⟩ 1 }

theorem oneFile_entries : entriesOf oneFile.files [] unselective.selection = [⟨"a.py", Files.load "utf-8" [120]⟩] := by
  have hlisted : oneFile.files.listed [] (some unselective.selection) = [("a.py", [120])] := by
    have hkept : (oneFile.files.below []).filter (fun e => !Files.isPruned unselective.selection e.1) =
        [(["a.py"], [120])] := by decide +kernel
    have hname : Files.relative ["a.py"] = "a.py" := by decide +kernel
    rw [Files.listed]
    dsimp only
    rw [hkept, List.map_singleton, hname, List.mergeSort_singleton]
  rw [entriesOf, Files.listing, hlisted]
  rfl

/-- The file has one finding, which tells that it has no tree. -/
theorem treeless_reports {c : Choices} {t : Severity}
    (hplan : Plan.make unselective c = .ok ⟨.text, t, none, unselective.selection⟩) (hlog : c.findings = none) :
    ∃ r st, Ends (report treeless unselective ⟨"", []⟩ c) oneFile (⟨.text, t, none, unselective.selection⟩, r) st ∧
      ∀ u : Severity, (∃ f ∈ r.files, ∃ x ∈ f.findings, u ≤ x.severity) ↔ u ≤ .high := by
  obtain ⟨r, st, out, hreport, hran⟩ :=
    report_reached treeless ⟨"", []⟩ oneFile hplan rfl rfl hlog rfl
  have hplace : Files.placeOf treeless.here ⟨"", []⟩ = [] := by decide +kernel
  have hseverities : r.files.flatMap (fun f => f.findings.map (·.severity)) = [.high] := by
    rw [hran.files_eq, hplace, oneFile_entries]
    decide +kernel
  refine ⟨r, st, hreport, fun u => ?_⟩
  have hmem : u ≤ .high ↔ ∃ t ∈ r.files.flatMap (fun f => f.findings.map (·.severity)), u ≤ t := by
    rw [hseverities]
    simp
  rw [hmem]
  simp only [List.mem_flatMap, List.mem_map]
  constructor
  · rintro ⟨f, hf, x, hx, hu⟩
    exact ⟨x.severity, ⟨f, hf, x, hx, rfl⟩, hu⟩
  · rintro ⟨_, ⟨f, hf, x, hx, rfl⟩, hu⟩
    exact ⟨f, hf, x, hx, hu⟩

/-- A file without a tree makes a run fail, unless only what is critical does. -/
theorem treeless_fails :
    (∃ code st, Ends (analyze treeless unselective ⟨"", []⟩ {}) oneFile code st ∧ code.toNat = 2) ∧
    ∃ code st, Ends (analyze treeless unselective ⟨"", []⟩ { failOn := some "critical" }) oneFile code st ∧
      code.toNat = 0 := by
  constructor
  · obtain ⟨r, st, hreport, hsevere⟩ := treeless_reports (c := {}) (t := .high) rfl rfl
    obtain ⟨code, st', hends, hcode, -⟩ := (exit_code_by_findings treeless unselective ⟨"", []⟩ {} oneFile).2 _ r st hreport
    refine ⟨code, st', hends, ?_⟩
    rw [hcode, if_pos ((hsevere .high).2 (by decide))]
  · have hplan : Plan.make unselective { failOn := some "critical" } =
        .ok ⟨.text, .critical, none, unselective.selection⟩ := by
      have hread : Severity.read "critical" = .ok .critical := by decide +kernel
      have hchosen : Plan.thresholdOf unselective { failOn := some "critical" } = .ok .critical :=
        congrArg (·.mapError Plan.Refusal.failOn) hread
      rw [Plan.make, hchosen]
      rfl
    obtain ⟨r, st, hreport, hsevere⟩ := treeless_reports hplan rfl
    obtain ⟨code, st', hends, hcode, -⟩ := (exit_code_by_findings treeless unselective ⟨"", []⟩
      { failOn := some "critical" } oneFile).2 _ r st hreport
    refine ⟨code, st', hends, ?_⟩
    rw [hcode, if_neg fun h => absurd ((hsevere .critical).1 h) (by decide)]

end CodeReview.Command
