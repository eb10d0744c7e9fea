import CodeReview.Proofs.Analyzer.Attributed
import CodeReview.Proofs.Report.Order
import CodeReview.Proofs.Run.Calls
import CodeReview.Proofs.Run.History
import CodeReview.Proofs.Run.Identifiers
/-!
# Runs over the same entries in another order

An analysis forgets what it has been asked before if its parser only remembers what its host has answered
(`known_forgets`).  What an entry contributes is then up to the entry alone (`contributions_eq_map`), so runs over the same
entries in different orders have the same files in different orders (`files_perm`), and reports that tell them apart by
nothing (`reports_forget_order`).
-/
namespace CodeReview.Run

open Grammar (Host Session)

/-! ## Analyses without a memory -/

/-- Analyses that make the same of a file in each session which recalls a host, and leave such a session. -/
structure Forgets (host : Host) (analyze : Analyze) : Prop where
  result : ∀ {s : Session}, s.Recalls host → ∀ path text language,
    (analyze s path text language).map (·.result) = (analyze {} path text language).map (·.result)
  session : ∀ {s : Session}, s.Recalls host → ∀ path text language r,
    analyze s path text language = .ok r → r.session.Recalls host

section

variable {host : Host} {analyze : Analyze} {s : Session}

theorem Forgets.contribute (h : Forgets host analyze) (hs : s.Recalls host) (e : Entry) :
    (contribute analyze s e).1 = (contribute analyze {} e).1 ∧ (contribute analyze s e).2.Recalls host := by
  unfold Run.contribute
  cases Language.ofPath? e.path with
  | none => exact ⟨rfl, hs⟩
  | some l =>
    dsimp only
    cases e.read with
    | error u => exact ⟨rfl, hs⟩
    | ok text =>
      dsimp only
      have hresult := h.result hs e.path text l.name
      cases hnow : analyze s e.path text l.name with
      | error why =>
        cases hfresh : analyze {} e.path text l.name with
        | error why' =>
          rw [hnow, hfresh] at hresult
          cases hresult
          exact ⟨rfl, hs⟩
        | ok r' =>
          rw [hnow, hfresh] at hresult
          cases hresult
      | ok r =>
        cases hfresh : analyze {} e.path text l.name with
        | error why' =>
          rw [hnow, hfresh] at hresult
          cases hresult
        | ok r' =>
          rw [hnow, hfresh] at hresult
          have hsame : r.result = r'.result := Except.ok.inj hresult
          exact ⟨congrArg Contribution.added hsame, h.session hs _ _ _ r hnow⟩

/-- **What an entry contributes is up to the entry alone.** -/
theorem Forgets.contributions_eq_map (h : Forgets host analyze) (hs : s.Recalls host) (entries : List Entry) :
    contributions analyze s entries = entries.map fun e => (Run.contribute analyze {} e).1 := by
  induction entries generalizing s with
  | nil => rfl
  | cons e rest ih =>
    obtain ⟨hsame, hrecalls⟩ := h.contribute hs e
    rw [contributions, List.map_cons, hsame, ih hrecalls]

end

namespace FileAnalyzer

def timedFor (a : FileAnalyzer) (host : Host) (tolerant : Bool) (clock : String → Nat → Number.Quantity)
    (elapsed : String → Float) (path : String) : FileAnalyzer :=
  { a with parse := hostParse host tolerant, clock := clock path, elapsed := elapsed path }

/-- Analysis on a host, each file with readings of the clock and a time of its own. -/
def timed (a : FileAnalyzer) (host : Host) (tolerant : Bool) (clock : String → Nat → Number.Quantity)
    (elapsed : String → Float) : Analyze :=
  fun session path text language => (a.timedFor host tolerant clock elapsed path).known session path text language

theorem known_forgets {a : FileAnalyzer} {host : Host} {tolerant : Bool} (ha : a.parse = hostParse host tolerant) :
    Forgets host a.known := by
  refine ⟨fun {s} hs path text language => ?_, fun {s} hs path text language r hr => ?_⟩
  · have hknown : ∀ s, a.known s path text language = a.analyze s path text (some language) := fun _ => rfl
    rw [hknown, hknown, analyze, analyze]
    cases languageOf path (some language) with
    | none => rfl
    | some l =>
      dsimp only
      rw [analyzeAs, analyzeAs]
      cases a.budget with
      | error why => rfl
      | ok dl => exact congrArg Except.ok (analyzeWithin_recalls ha hs path text l dl).1
  · rw [known, analyze] at hr
    cases hl : languageOf path (some language) with
    | none =>
      rw [hl] at hr
      cases hr
      exact hs
    | some l =>
      rw [hl] at hr
      dsimp only at hr
      rw [analyzeAs] at hr
      cases hb : a.budget with
      | error why =>
        rw [hb] at hr
        cases hr
      | ok dl =>
        rw [hb] at hr
        cases hr
        exact (analyzeWithin_recalls ha hs path text l dl).2

section

variable {a : FileAnalyzer} {host : Host} {tolerant : Bool} {clock : String → Nat → Number.Quantity}
  {elapsed : String → Float}

theorem timed_forgets : Forgets host (a.timed host tolerant clock elapsed) where
  result hs path := (known_forgets (a := a.timedFor host tolerant clock elapsed path) rfl).result hs path
  session hs path _ _ _ hr :=
    (known_forgets (a := a.timedFor host tolerant clock elapsed path) rfl).session hs path _ _ _ hr

theorem timed_of {e : Entry} {c : Contribution} (h : c.Of (a.timed host tolerant clock elapsed) e) :
    c.Of (a.timedFor host tolerant clock elapsed e.path).known e := by
  cases h with
  | skipped hl => exact .skipped hl
  | unread hl hr => exact .unread hl hr
  | crashed hl hr ha => exact .crashed hl hr ha
  | added hl hr ha => exact .added hl hr ha

/-! ## Where findings lie -/

/-- **What local analyzers find lies in the file** that it is found for. -/
theorem found_local {session : Session} {path text language : String} {dl : Option Syntax.Deadline} {fs : List Finding}
    (hx : ∀ x ∈ a.registry.analyzers, x.Local) (h : Found a session path text language dl fs) :
    ∀ f ∈ fs, f.location.path = path :=
  h.forall_findings (fun _ _ => rfl) fun _ _ x hmem _ _ hgs f hf => hx x hmem _ _ _ _ hgs f hf

theorem finish_local {path : String} {fs : List Finding} (h : ∀ f ∈ fs, f.location.path = path) :
    ∀ f ∈ a.finish path fs, f.location.path = path := by
  intro f hf
  obtain ⟨g, hg, n, rfl⟩ := exists_of_mem_finish hf
  exact h g hg

end

end FileAnalyzer

/-! ## Whole runs -/

section

variable {σ σ' : Type} {o : Observers σ} {o' : Observers σ'} {analyze : Analyze} {total total' : Nat}
  {entries entries' : List Entry} {state state' : RunState} {out : Outcome σ} {out' : Outcome σ'}
  {r r' : RepositoryResult} {xs xs' : List Account} {progress sink progress' sink' : Option Failure} {host : Host}

theorem Ran.finished (h : Ran o analyze total entries state out r xs progress sink) : r.Finished := by
  obtain ⟨start, finish, hr⟩ := h.result
  let begun : RepositoryResult := { totalFiles := total, state := .running, startedAt := start }
  have hbegun : begun.Counted := ⟨rfl, rfl, fun s => by cases s <;> rfl, rfl⟩
  have hcounted := hbegun.foldl_addFile (xs.flatMap (·.contribution.files))
  rw [hr]
  exact { toCounted := (hcounted.finalize state finish).addErrors _, score := rfl, complexity := rfl }

theorem Forgets.contributions_perm (hf : Forgets host analyze) (h : entries.Perm entries') :
    (contributions analyze {} entries).Perm (contributions analyze {} entries') := by
  have hfresh := Session.fresh_recalls host
  rw [hf.contributions_eq_map hfresh, hf.contributions_eq_map hfresh]
  exact h.map _

/-- **Runs over the same entries in different orders have the same files in different orders.** -/
theorem Ran.files_perm (h : Ran o analyze total entries state out r xs progress sink)
    (h' : Ran o' analyze total' entries' state' out' r' xs' progress' sink') (hf : Forgets host analyze)
    (hentries : entries.Perm entries') : r.files.Perm r'.files := by
  rw [h.files, h'.files]
  exact (hf.contributions_perm hentries).flatMap_right _

/-- **Runs over the same entries in different orders have equally many errors**, but for those of observers. -/
theorem Ran.errors_perm (h : Ran o analyze total entries state out r xs progress sink)
    (h' : Ran o' analyze total' entries' state' out' r' xs' progress' sink') (hf : Forgets host analyze)
    (hentries : entries.Perm entries') :
    r.errors.length + out'.calls.countP Call.failed = r'.errors.length + out.calls.countP Call.failed := by
  have hsame := ((hf.contributions_perm hentries).flatMap_right (·.errors)).length_eq
  have hfirst := h.errors_length
  have hsecond := h'.errors_length
  omega

/-- The files of a run over entries with different paths have different paths, and their findings lie in them. -/
theorem Ran.placed {a : FileAnalyzer} {tolerant : Bool} {clock : String → Nat → Number.Quantity} {elapsed : String → Float}
    (h : Ran o (a.timed host tolerant clock elapsed) total entries state out r xs progress sink)
    (hx : ∀ x ∈ a.registry.analyzers, x.Local) (hpaths : (entries.map (·.path)).Nodup) : Report.Placed r.files := by
  have hof := h.contribution_of
  rw [h.files_eq]
  constructor
  · have hadded := FileAnalyzer.paths_sublist fun x hmem =>
      FileAnalyzer.contribution_paths (FileAnalyzer.timed_of (hof x hmem))
    rw [← h.course, List.map_map] at hpaths
    exact hadded.nodup hpaths
  · intro f hf
    obtain ⟨x, hmem, hfx⟩ := List.mem_flatMap.1 hf
    obtain ⟨hpath, session, text, language, dl, fs, hfs, hfindings⟩ :=
      FileAnalyzer.contribution_found (FileAnalyzer.timed_of (hof x hmem)) hfx
    rw [hfindings, hpath]
    exact FileAnalyzer.finish_local
      (FileAnalyzer.found_local (a := a.timedFor host tolerant clock elapsed x.entry.path) hx hfs)

end

/-- A run that is never called off goes through all selected entries. -/
theorem repository_completed {σ : Type} (analyze : Analyze) (o : Observers σ) (selection : Selection) {listing : Listing}
    (state : σ) (hl : listing.failure = none) :
    ∃ r xs progress sink, Ran o analyze (selected selection listing.entries).length (selected selection listing.entries)
      .completed (repository analyze o Token.never selection listing state) r xs progress sink := by
  have hcourse := course_never 0 (selected selection listing.entries)
  obtain ⟨-, hran⟩ := repository_ran analyze o Token.never selection listing state hl
  obtain ⟨r, xs, progress, sink, h⟩ := hran .completed (by rw [hcourse])
  rw [hcourse] at h
  exact ⟨r, xs, progress, sink, h⟩

/-- **Reports forget the order of the files.**  Two runs over the same entries in different orders, neither of which is
called off, come to results with the same counters, score, languages and complexity, whoever watches them.  If the first
has no errors, the second has none but for observers that fail.

With analyzers whose findings lie in the file they are given, as the built-in ones are, the text and the Markdown of their
reports are the same if there are no errors and the times of beginning and end are the same. -/
theorem reports_forget_order :
    (∀ x ∈ Registry.builtin.analyzers, x.Local) ∧
    ∀ {σ σ' : Type} (a : FileAnalyzer) (host : Host) (tolerant : Bool) (clock : String → Nat → Number.Quantity)
      (elapsed : String → Float) (o : Observers σ) (o' : Observers σ') (selection : Selection)
      (listing listing' : Listing) (state : σ) (state' : σ'),
      listing.failure = none → listing'.failure = none → listing.entries.Perm listing'.entries →
      (listing.entries.map (·.path)).Nodup →
      let analyze := a.timed host tolerant clock elapsed
      let out := repository analyze o Token.never selection listing state
      let out' := repository analyze o' Token.never selection listing' state'
      ∃ r r', out.result = .ok r ∧ out'.result = .ok r' ∧ r.Unordered r' ∧ r.totalFiles = r'.totalFiles ∧
        r.state = .completed ∧ r'.state = .completed ∧
        (r.errors = [] → (r'.errors = [] ↔ out'.calls.countP Call.failed = 0)) ∧
        ((∀ x ∈ a.registry.analyzers, x.Local) → r.errors = [] → r'.errors = [] →
          r.startedAt = r'.startedAt → r.finishedAt = r'.finishedAt →
          ∀ title, Report.render .text title r = Report.render .text title r' ∧
            Report.render .markdown title r = Report.render .markdown title r') := by
  refine ⟨Analyzer.builtin_local, ?_⟩
  intro σ σ' a host tolerant clock elapsed o o' selection listing listing' state state' hl hl' hentries hpaths
    analyze out out'
  have hselected : (selected selection listing.entries).Perm (selected selection listing'.entries) := hentries.filter _
  obtain ⟨r, xs, progress, sink, h⟩ := repository_completed analyze o selection state hl
  obtain ⟨r', xs', progress', sink', h'⟩ := repository_completed analyze o' selection state' hl'
  have hforgets : Forgets host analyze := FileAnalyzer.timed_forgets
  have hfiles := h.files_perm h' hforgets hselected
  have htotal : r.totalFiles = r'.totalFiles := by rw [h.totalFiles, h'.totalFiles, hselected.length_eq]
  refine ⟨r, r', h.returned, h'.returned, h.finished.unordered h'.finished hfiles, htotal, h.state, h'.state, ?_, ?_⟩
  · intro hnone
    have hcount : r.errors.length + out'.calls.countP Call.failed = r'.errors.length + out.calls.countP Call.failed :=
      h.errors_perm h' hforgets hselected
    have hquiet : out.calls.countP Call.failed = 0 := by
      have hlength : r.errors.length = _ + out.calls.countP Call.failed := h.errors_length
      rw [hnone, List.length_nil] at hlength
      omega
    rw [hnone, List.length_nil, hquiet] at hcount
    rw [← List.length_eq_zero_iff]
    omega
  · intro hx hnone hnone' hstart hfinish title
    have hplaced : Report.Placed r.files := h.placed hx ((List.filter_sublist.map _).nodup hpaths)
    have hshown := Report.shown_of_perm h.finished h'.finished hfiles hplaced htotal (h.state.trans h'.state.symm) hstart
      hfinish (hnone.trans hnone'.symm)
    exact ⟨hshown.text title, hshown.markdown title⟩

def twoUnparsed (entries : List Entry) : Outcome Unit :=
  repository (({ parse := hostParse .bare false } : FileAnalyzer).timed .bare false (fun _ _ => .whole 0) fun _ => 0.0)
    (Observers.idle fun s => (⟨0⟩, s)) Token.never { exclude := [] } { entries } ()

/-- The findings of two files are reported alike in both orders. -/
theorem both_orders_alike : ∃ r r',
    (twoUnparsed [.ofText "a.py" "x", .ofText "b.py" "x"]).result = .ok r ∧
    (twoUnparsed [.ofText "b.py" "x", .ofText "a.py" "x"]).result = .ok r' ∧
    r.files.map (·.path) = ["a.py", "b.py"] ∧ r'.files.map (·.path) = ["b.py", "a.py"] ∧
    r.totalIssues = 2 ∧ r.tally = r'.tally ∧
    ∀ title, Report.render .text title r = Report.render .text title r' ∧
      Report.render .markdown title r = Report.render .markdown title r' := by
  obtain ⟨hlocal, hreports⟩ := reports_forget_order
  obtain ⟨r, r', hr, hr', hsame, -, -, -, -, hshown⟩ := hreports { parse := hostParse .bare false } .bare false
    (fun _ _ => .whole 0) (fun _ => 0.0) (Observers.idle fun s => (⟨0⟩, s)) (Observers.idle fun s => (⟨0⟩, s))
    { exclude := [] } { entries := [.ofText "a.py" "x", .ofText "b.py" "x"] }
    { entries := [.ofText "b.py" "x", .ofText "a.py" "x"] } () () rfl rfl (List.Perm.swap _ _ _) (by decide)
  have hfirst : ∃ q, (twoUnparsed [.ofText "a.py" "x", .ofText "b.py" "x"]).result = .ok q ∧
      q.files.map (·.path) = ["a.py", "b.py"] ∧ q.totalIssues = 2 ∧ q.errors = [] ∧ q.startedAt = ⟨0⟩ ∧
      q.finishedAt = some ⟨0⟩ := ⟨_, rfl, by decide +kernel⟩
  have hsecond : ∃ q, (twoUnparsed [.ofText "b.py" "x", .ofText "a.py" "x"]).result = .ok q ∧
      q.files.map (·.path) = ["b.py", "a.py"] ∧ q.errors = [] ∧ q.startedAt = ⟨0⟩ ∧
      q.finishedAt = some ⟨0⟩ := ⟨_, rfl, by decide +kernel⟩
  obtain ⟨q, hq, hpaths, hissues, hnone, hstart, hfinish⟩ := hfirst
  obtain ⟨q', hq', hpaths', hnone', hstart', hfinish'⟩ := hsecond
  obtain rfl : r = q := Except.ok.inj (hr.symm.trans hq)
  obtain rfl : r' = q' := Except.ok.inj (hr'.symm.trans hq')
  exact ⟨r, r', hr, hr', hpaths, hpaths', hissues, hsame.tally,
    hshown hlocal hnone hnone' (hstart.trans hstart'.symm) (hfinish.trans hfinish'.symm)⟩

end CodeReview.Run
