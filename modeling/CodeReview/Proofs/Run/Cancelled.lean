import CodeReview.Proofs.Run.Calls
import Mathlib.Data.List.Basic
/-!
# Cancelled runs

A run that is called off before its entry `k + 1` is a run over its first `k` entries (`cancelled_run_is_prefix_run`).
The entries behind them are neither read nor analyzed: two analyses that treat the entries alike that a run goes through
make the same run of all (`repository_congr`).
-/
namespace CodeReview.Run

structure Observers.NeverFail {σ : Type} (o : Observers σ) : Prop where
  progress : ∀ s processed total phase, (o.progress s processed total phase).failure = none
  write : ∀ s r, (o.write s r).failure = none
  close : ∀ s r, (o.close s r).failure = none

/-- That two analyses treat the text of an entry alike. -/
def Alike (analyze analyze' : Analyze) (e : Entry) : Prop :=
  ∀ session text language, e.read = .ok text → analyze' session e.path text language = analyze session e.path text language

section

variable {σ : Type} {o : Observers σ} {analyze analyze' : Analyze} {token : Token} {total : Nat}

/-! ## The entries behind -/

theorem process_congr {e : Entry} (h : Alike analyze analyze' e) (w : Work σ) :
    w.process o analyze' total e = w.process o analyze total e := by
  have hentry : ∀ w : Work σ, w.analyzeEntry o analyze' e = w.analyzeEntry o analyze e := by
    intro w
    unfold Work.analyzeEntry
    cases Language.ofPath? e.path with
    | none => rfl
    | some l =>
      dsimp only
      cases hr : e.read with
      | error u => rfl
      | ok text =>
        dsimp only [Work.analyzeText]
        rw [h _ text l.name hr]
  rw [Work.process, Work.process, hentry]

theorem processAll_congr : ∀ (entries : List Entry) (w : Work σ),
    (∀ e ∈ (token.course w.processed entries).1, Alike analyze analyze' e) →
    Work.processAll o analyze' token total entries w = Work.processAll o analyze token total entries w
  | [], _, _ => rfl
  | e :: rest, w, h => by
    unfold Work.processAll
    cases ht : token (w.processed + 1) with
    | error why => rfl
    | ok off =>
      cases off with
      | true => rfl
      | false =>
        have hcourse : (token.course w.processed (e :: rest)).1 = e :: (token.course (w.processed + 1) rest).1 := by
          rw [Token.course, ht]
        rw [hcourse] at h
        have he : Alike analyze analyze' e := h e (by simp)
        obtain ⟨x, hx⟩ := Work.process_processed o analyze total e w
        dsimp only
        rw [process_congr he]
        refine processAll_congr rest _ fun y hy => h y ?_
        rw [hx.processed] at hy
        exact List.mem_cons_of_mem e hy

/-- **Entries that a run does not come to are not analyzed**: the run is the same whatever their analysis would do. -/
theorem repository_congr {selection : Selection} {listing : Listing} {state : σ}
    (h : ∀ e ∈ (token.course 0 (selected selection listing.entries)).1, Alike analyze analyze' e) :
    repository analyze' o token selection listing state = repository analyze o token selection listing state := by
  unfold repository
  cases listing.failure with
  | some why => rfl
  | none =>
    dsimp only
    rw [processAll_congr (selected selection listing.entries) _ h]

/-! ## Runs whose observers never fail -/

theorem heard_of_neverFail (ho : o.NeverFail) {x : Account} {n : Nat} (h : x.Holds o analyze total n) :
    x.heard = [] := by
  have hprogress : x.progress = none := by
    obtain ⟨s, hs⟩ := h.progress
    rw [← hs, ho.progress]
  have hsink : x.sink = none := by
    have hs := h.sink
    revert hs
    cases x.contribution with
    | skipped => exact id
    | refused e => exact id
    | added r => rintro ⟨s, hs⟩; rw [← hs, ho.write]
  rw [Account.heard, hprogress, hsink]
  rfl

theorem Ran.errors_of_neverFail {entries : List Entry} {state : RunState} {out : Outcome σ} {r : RepositoryResult}
    {xs : List Account} {progress sink : Option Failure} (ho : o.NeverFail)
    (h : Ran o analyze total entries state out r xs progress sink) :
    r.errors = (Run.contributions analyze {} entries).flatMap (·.errors) := by
  have hprogress : progress = none := by
    obtain ⟨s, hs⟩ := h.reported
    rw [← hs, ho.progress]
  have hsink : sink = none := by
    obtain ⟨s, r, hs⟩ := h.closed
    rw [← hs, ho.close]
  have herrors : xs.flatMap (·.errors) = xs.flatMap (·.contribution.errors) := by
    refine List.flatMap_congr fun x hx => ?_
    obtain ⟨n, hn⟩ := h.holds x hx
    rw [x.errors_eq, heard_of_neverFail ho hn, List.append_nil]
  rw [h.errors, hprogress, hsink, heardErrors_none, heardErrors_none, List.append_nil, List.append_nil, herrors,
    ← h.contributions, List.flatMap_map]

end

/-! ## Called off -/

theorem selected_take (selection : Selection) (entries : List Entry) (k : Nat) :
    selected selection ((selected selection entries).take k) = (selected selection entries).take k :=
  List.filter_eq_self.2 fun _ he => (List.mem_filter.1 (List.mem_of_mem_take he)).2

/-- **A run that is called off before its entry `k + 1` is a run over its first `k` entries** which is not called off.
The results differ in the number of selected files, in the state and in the times only; no entry behind the first `k` is
read or handed to the sink, and how it would be analyzed makes no difference. -/
theorem cancelled_run_is_prefix_run {σ σ' : Type} (analyze : Analyze) (o : Observers σ) (o' : Observers σ')
    (token : Token) (selection : Selection) (listing : Listing) (state : σ) (state' : σ') (k : Nat)
    (hl : listing.failure = none) (hk : k < (selected selection listing.entries).length)
    (hfalse : ∀ i < k, token (i + 1) = .ok false) (htrue : token (k + 1) = .ok true)
    (ho : o.NeverFail) (ho' : o'.NeverFail) :
    let entries := selected selection listing.entries
    let out := repository analyze o token selection listing state
    let out' := repository analyze o' Token.never selection { entries := entries.take k } state'
    ∃ r r', out.result = .ok r ∧ out'.result = .ok r' ∧
      r.state = .cancelled ∧ r'.state = .completed ∧ r.totalFiles = entries.length ∧ r'.totalFiles = k ∧
      r = { r' with
        state := .cancelled, totalFiles := entries.length, startedAt := r.startedAt, finishedAt := r.finishedAt } ∧
      r.languages = r'.languages ∧
      out.calls.filterMap Call.path? = ((entries.take k).filter Entry.isAnalyzed).map (·.path) ∧
      out.calls.filterMap Call.written? = r'.files ∧
      ∀ analyze', (∀ e ∈ entries.take k, Alike analyze analyze' e) →
        repository analyze' o token selection listing state = out := by
  intro entries out out'
  have hcourse : token.course 0 entries = (entries.take k, .ok .cancelled) :=
    course_of_first k 0 entries hk (fun i hi => by rw [Nat.zero_add]; exact hfalse i hi)
      (by rw [Nat.zero_add]; exact htrue)
  have hinitial : selected selection (entries.take k) = entries.take k := selected_take selection listing.entries k
  have hlength : (entries.take k).length = k := List.length_take_of_le (Nat.le_of_lt hk)
  obtain ⟨r, xs, progress, sink, hran⟩ :=
    (repository_ran analyze o token selection listing state hl).2 .cancelled (by rw [hcourse])
  obtain ⟨r', xs', progress', sink', hran'⟩ :=
    (repository_ran analyze o' Token.never selection { entries := entries.take k } state' rfl).2 .completed
      (by rw [course_never])
  rw [hcourse] at hran
  rw [course_never] at hran'
  dsimp only at hran hran'
  rw [hinitial, hlength] at hran'
  -- what `Ran.agree` leaves open: the errors, which no observer adds to, the state and the number of entries
  have herrors : r.errors = r'.errors := (hran.errors_of_neverFail ho).trans (hran'.errors_of_neverFail ho').symm
  have hfiles : r.files = r'.files := hran.files.trans hran'.files.symm
  have hsame : r = { r' with
      state := .cancelled, totalFiles := entries.length, startedAt := r.startedAt, finishedAt := r.finishedAt } := by
    have h := hran.agree hran'
    rwa [hran.totalFiles, hran.state, herrors] at h
  refine ⟨r, r', hran.returned, hran'.returned, hran.state, hran'.state, hran.totalFiles, hran'.totalFiles, hsame, ?_,
    hran.reads, ?_, ?_⟩
  · rw [RepositoryResult.languages, hfiles]
    rfl
  · rw [← hfiles]
    exact hran.writes
  · intro analyze' h
    refine repository_congr fun e he => h e ?_
    rwa [hcourse] at he

def threeFiles : Listing := { entries := [.ofText "a.py" "x", .ofText "b.md" "x", .ofText "c.py" "x"] }

/-- A run over three files that is called off before the last of them. -/
theorem called_off_after_two : ∃ r r',
    (repository ({ parse := hostParse .bare false } : FileAnalyzer).known (Observers.idle fun s => (⟨0⟩, s))
      (fun n => .ok (n == 3)) { exclude := [] } threeFiles ()).result = .ok r ∧
    (repository ({ parse := hostParse .bare false } : FileAnalyzer).known (Observers.idle fun s => (⟨0⟩, s))
      Token.never { exclude := [] } { entries := threeFiles.entries.take 2 } ()).result = .ok r' ∧
    r = { r' with state := .cancelled, totalFiles := 3, startedAt := r.startedAt, finishedAt := r.finishedAt } := by
  have hidle : (Observers.idle fun s : Unit => ((⟨0⟩ : Calendar.Instant), s)).NeverFail :=
    ⟨fun _ _ _ _ => rfl, fun _ _ => rfl, fun _ _ => rfl⟩
  have hbefore : ∀ i < 2, (i + 1 == 3) = false := by decide
  have hfalse : ∀ i < 2, (Except.ok (i + 1 == 3) : Except Failure Bool) = .ok false :=
    fun i hi => congrArg Except.ok (hbefore i hi)
  obtain ⟨r, r', hr, hr', -, -, -, -, h, -⟩ := cancelled_run_is_prefix_run
    ({ parse := hostParse .bare false } : FileAnalyzer).known (Observers.idle fun s => (⟨0⟩, s))
    (Observers.idle fun s => (⟨0⟩, s)) (fun n => .ok (n == 3)) { exclude := [] } threeFiles () () 2 rfl (by decide)
    hfalse rfl hidle hidle
  exact ⟨r, r', hr, hr', h⟩

end CodeReview.Run
