import CodeReview.Proofs.Run.Released
import CodeReview.Proofs.Text.Lines
import CodeReview.Proofs.Value.Json
/-!
# The record of a run

A file of findings has one line for each result that it was given before it was first closed, in order, and then one with
the summary; what it is told after that it refuses or passes over, and its text grows no more (`serveAll_calls`).  A run
gives it the files of its result as they come in, and closes it when nothing is added to the result any more, so the lines
are those of the result that the run returns (`findings_recorded`).
-/
namespace CodeReview

open Calendar (Clock Instant)

namespace Sink.JsonLines

/-! ## Lines -/

def fileLine (r : FileResult) (time : Instant) : String :=
  (Value.map [("type", .text "file"), ("file", r.toValue), ("ts", .text time.iso)]).compact

def summaryLine (r : RepositoryResult) (time : Instant) : String :=
  (Value.map [("type", .text "summary"), ("status", .text r.state.name), ("summary", r.summary),
    ("errors", .list (r.errors.map (·.toValue))), ("ts", .text time.iso)]).compact

theorem append_file (s : JsonLines) (clock : Clock) (r : FileResult) :
    (s.append clock (fileEntries r)).1 = { s with lines := s.lines ++ [fileLine r clock.read.1] } := by
  simp [append, fileEntries, fileLine, Entries.set]

theorem append_summary (s : JsonLines) (clock : Clock) (r : RepositoryResult) :
    (s.append clock (summaryEntries r)).1 = { s with lines := s.lines ++ [summaryLine r clock.read.1] } := by
  simp [append, summaryEntries, summaryLine, Entries.set]

theorem newline_notMem_fileLine (r : FileResult) (time : Instant) : '\n' ∉ (fileLine r time).toList :=
  Value.newline_notMem_compact _

theorem newline_notMem_summaryLine (r : RepositoryResult) (time : Instant) : '\n' ∉ (summaryLine r time).toList :=
  Value.newline_notMem_compact _

/-! ## Calls -/

inductive Told where
  | write (r : FileResult)
  | close (r : RepositoryResult)

def Told.isWrite : Told → Bool
  | write _ => true
  | close _ => false

def Told.line (time : Instant) : Told → String
  | write r => fileLine r time
  | close r => summaryLine r time

/-- What a closed file answers: it refuses results. -/
def Told.refusal (path : String) : Told → Option Failure
  | write _ => some (.closedSink path)
  | close _ => none

theorem Told.newline_notMem_line (time : Instant) (t : Told) : '\n' ∉ (t.line time).toList := by
  cases t with
  | write r => exact newline_notMem_fileLine r time
  | close r => exact newline_notMem_summaryLine r time

def serve (s : JsonLines) (clock : Clock) : Told → Run.Reply (JsonLines × Clock)
  | .write r => s.write clock r
  | .close r => s.close clock r

/-- Serves calls one after the other, each with a clock to read, and lists how they have failed. -/
def serveAll (s : JsonLines) : List (Clock × Told) → List (Option Failure) × JsonLines
  | [] => ([], s)
  | (clock, told) :: calls =>
    let reply := s.serve clock told
    let (failures, s) := serveAll reply.state.1 calls
    (reply.failure :: failures, s)

def callLine (call : Clock × Told) : String := call.2.line call.1.read.1

theorem serve_open (path : String) (lines : List String) (clock : Clock) (told : Told) :
    let reply := ({ path, lines } : JsonLines).serve clock told
    reply.failure = none ∧
      reply.state.1 = { path, isOpen := told.isWrite, lines := lines ++ [told.line clock.read.1] } := by
  cases told with
  | write r => exact ⟨rfl, append_file { path, lines } clock r⟩
  | close r => exact ⟨rfl, by rw [serve, close, if_pos rfl]; simp [append_summary, Told.line, Told.isWrite]⟩

theorem serve_closed (path : String) (lines : List String) (clock : Clock) (told : Told) :
    let reply := ({ path, isOpen := false, lines } : JsonLines).serve clock told
    reply.failure = told.refusal path ∧ reply.state.1 = { path, isOpen := false, lines } := by
  cases told <;> exact ⟨rfl, rfl⟩

theorem serveAll_closed (path : String) (lines : List String) : ∀ calls : List (Clock × Told),
    ({ path, isOpen := false, lines } : JsonLines).serveAll calls =
      (calls.map (·.2.refusal path), { path, isOpen := false, lines })
  | [] => rfl
  | (clock, told) :: calls => by
    obtain ⟨hfailure, hstate⟩ := serve_closed path lines clock told
    rw [serveAll, hfailure, hstate, serveAll_closed path lines calls]
    rfl

/-- **A file of findings takes the results that it is given before it is first closed**, and then the summary.  After that
it refuses results, and nothing changes it. -/
theorem serveAll_calls (path : String) : ∀ (calls : List (Clock × Told)) (lines : List String),
    let writes := calls.takeWhile (·.2.isWrite)
    let rest := calls.dropWhile (·.2.isWrite)
    ({ path, lines } : JsonLines).serveAll calls =
      (writes.map (fun _ => none) ++ rest.map (·.2.refusal path),
        { path, isOpen := rest.isEmpty, lines := lines ++ (writes.map callLine ++ (rest.take 1).map callLine) })
  | [], lines => by simp [serveAll]
  | (clock, .write r) :: calls, lines => by
    obtain ⟨hfailure, hstate⟩ := serve_open path lines clock (.write r)
    have ih := serveAll_calls path calls (lines ++ [fileLine r clock.read.1])
    rw [serveAll, hfailure, hstate]
    dsimp only [Told.isWrite, Told.line] at ih ⊢
    rw [ih]
    simp [callLine, Told.line]
  | (clock, .close r) :: calls, lines => by
    obtain ⟨hfailure, hstate⟩ := serve_open path lines clock (.close r)
    rw [serveAll, hfailure, hstate]
    dsimp only [Told.isWrite]
    rw [serveAll_closed]
    simp [callLine, Told.refusal]

end Sink.JsonLines

/-! ## Runs -/

namespace Run

open Sink (JsonLines)
open Sink.JsonLines (Told callLine fileLine summaryLine)

/-- That observers keep a file of findings as a part of their state: it is given the results, it is closed, each time with
a clock to read, and nothing else touches it. -/
structure Observers.Logs {σ : Type} (o : Observers σ) (log? : σ → Option JsonLines) : Prop where
  now : ∀ s, log? (o.now s).2 = log? s
  progress : ∀ s processed total phase, log? (o.progress s processed total phase).state = log? s
  write : ∀ s r sink, log? s = some sink → ∃ clock, (o.write s r).failure = (sink.write clock r).failure ∧
    log? (o.write s r).state = some (sink.write clock r).state.1
  close : ∀ s r sink, log? s = some sink → ∃ clock, (o.close s r).failure = (sink.close clock r).failure ∧
    log? (o.close s r).state = some (sink.close clock r).state.1

namespace Work

variable {σ : Type} {o : Observers σ} {log? : σ → Option JsonLines} {path : String} {before : List String}
  {analyze : Analyze} {token : Token} {total : Nat} {w w' : Work σ}

/-- That a file of findings is open and has, behind the lines of before, those of the files of the result so far. -/
def Recorded (log? : σ → Option JsonLines) (path : String) (before : List String) (w : Work σ) : Prop :=
  ∃ times : List Instant, times.length = w.result.files.length ∧
    log? w.state = some { path, lines := before ++ List.zipWith fileLine w.result.files times }

theorem Recorded.of_same (h : Recorded log? path before w) (hfiles : w'.result.files = w.result.files)
    (hlog : log? w'.state = log? w.state) : Recorded log? path before w' := by
  obtain ⟨times, hlength, hlines⟩ := h
  exact ⟨times, hfiles ▸ hlength, by rw [hlog, hlines, hfiles]⟩

theorem Recorded.report (ho : o.Logs log?) (h : Recorded log? path before w) (phase : String) :
    Recorded log? path before (w.report o total phase) := by
  refine h.of_same ?_ ?_
  · rw [report_result, RepositoryResult.addErrors_files]
  · rw [Work.report, hear_state]
    exact ho.progress _ _ _ _

/-- **A file that is added to the result is given to the sink**, which writes one line. -/
theorem Recorded.hand (ho : o.Logs log?) (h : Recorded log? path before w) (a : Analyzed) (of : String) :
    Recorded log? path before ((w.fold a).hand o of a.result) := by
  obtain ⟨times, hlength, hlines⟩ := h
  obtain ⟨clock, -, hstate⟩ := ho.write (w.fold a).state a.result _ hlines
  have hfiles : ((w.fold a).hand o of a.result).result.files = w.result.files ++ [a.result] := by
    rw [hand_result, RepositoryResult.addErrors_files, fold_result, Contribution.addTo_files]
    rfl
  refine ⟨times ++ [clock.read.1], by rw [hfiles, List.length_append, List.length_append, hlength]; rfl, ?_⟩
  rw [hfiles, List.zipWith_append hlength.symm, ← List.append_assoc, Work.hand, hear_state, hstate]
  exact congrArg some (JsonLines.append_file _ clock a.result)

theorem Recorded.analyzeEntry (ho : o.Logs log?) (h : Recorded log? path before w) (e : Entry) :
    Recorded log? path before (w.analyzeEntry o analyze e) := by
  rcases analyzeEntry_cases o analyze e w with ⟨a, ha⟩ | ⟨hfiles, hstate⟩
  · rw [ha]
    exact Recorded.hand (w := w.note (.read e.path)) ho h a e.path
  · exact h.of_same hfiles (congrArg log? hstate)

/-- **Processing an entry keeps the record.** -/
theorem Recorded.process (ho : o.Logs log?) (h : Recorded log? path before w) (e : Entry) :
    Recorded log? path before (w.process o analyze total e) :=
  Recorded.report ho (Recorded.analyzeEntry (w := { w with processed := w.processed + 1 }) ho h e) analyzing

theorem Moment.recorded (ho : o.Logs log?) {entries rest : List Entry} {start : Work σ}
    (hstart : Recorded log? path before start) (hm : Moment o analyze token total entries start rest w) :
    Recorded log? path before w := by
  induction hm with
  | start => exact hstart
  | next _ _ ih => exact Recorded.process (w := Work.note _ .look) ho ih _

theorem EndsAt.state_eq {rest : List Entry} {out : Except Failure RunState × Work σ} (h : EndsAt token total rest w out) :
    out.2.state = w.state := by
  cases h <;> rfl

/-- **The record of a run is kept over all entries.** -/
theorem processAll_recorded (ho : o.Logs log?) (analyze : Analyze) (token : Token) (total : Nat) (entries : List Entry)
    (h : Recorded log? path before w) :
    Recorded log? path before (processAll o analyze token total entries w).2 := by
  obtain ⟨rest, w', hm, he⟩ := processAll_ends o analyze token total entries w
  exact (hm.recorded ho h).of_same (by rw [he.result_eq]) (by rw [he.state_eq])

theorem Recorded.conclude (ho : o.Logs log?) (h : Recorded log? path before w) (total : Nat) (state : RunState) :
    Recorded log? path before (w.conclude o total state) := by
  let w₁ : Work σ := { w with result := w.result.finalize state (o.now w.state).1, state := (o.now w.state).2 }
  have h₁ : Recorded log? path before w₁ := h.of_same rfl (ho.now w.state)
  exact h₁.report ho state.name

/-- **Closing adds the summary of the result as it stands**, which closing leaves alone. -/
theorem Recorded.close (ho : o.Logs log?) (h : Recorded log? path before w) :
    (w.close o).result = w.result ∧
      ∃ times last, times.length = w.result.files.length ∧
        log? (w.close o).state = some
          { path, isOpen := false,
            lines := before ++ (List.zipWith fileLine w.result.files times ++ [summaryLine w.result last]) } := by
  obtain ⟨times, hlength, hlines⟩ := h
  obtain ⟨clock, hfailure, hstate⟩ := ho.close w.state w.result _ hlines
  refine ⟨?_, times, clock.read.1, hlength, ?_⟩
  · rw [close_result, hfailure]
    exact RepositoryResult.addErrors_nil w.result
  · rw [Work.close, hear_state, hstate, JsonLines.close, if_pos rfl, ← List.append_assoc]
    dsimp only
    rw [JsonLines.append_summary]

end Work

theorem begin_recorded {σ : Type} {o : Observers σ} {log? : σ → Option JsonLines} (ho : o.Logs log?) {path : String}
    {before : List String} (listing : Listing) (total : Nat) {state : σ} (h : log? state = some { path, lines := before }) :
    Work.Recorded log? path before (begin_ o listing total state) := by
  refine ⟨[], rfl, ?_⟩
  rw [begin_]
  dsimp only
  rw [ho.now, h, List.zipWith_nil_right, List.append_nil]

/-- **A run that returns has recorded the result that it returns.** -/
theorem repository_recorded {σ : Type} {o : Observers σ} {log? : σ → Option JsonLines} (ho : o.Logs log?)
    (analyze : Analyze) (token : Token) (selection : Selection) (listing : Listing) {path : String} {before : List String}
    {state : σ} (h : log? state = some { path, lines := before }) {r : RepositoryResult}
    (hr : (repository analyze o token selection listing state).result = .ok r) :
    ∃ times last, times.length = r.files.length ∧
      log? (repository analyze o token selection listing state).state = some
        { path, isOpen := false,
          lines := before ++ (List.zipWith fileLine r.files times ++ [summaryLine r last]) } := by
  cases hl : listing.failure with
  | some why => rw [repository_of_failure hl] at hr; cases hr
  | none =>
    rw [repository_of_listed hl] at hr ⊢
    generalize selected selection listing.entries = entries at hr ⊢
    have hrecorded := Work.processAll_recorded ho analyze token entries.length entries
      (begin_recorded ho listing entries.length h)
    generalize Work.processAll o analyze token entries.length entries (begin_ o listing entries.length state) = out
      at hr hrecorded ⊢
    rcases out with ⟨why | how, w⟩
    · cases hr
    · obtain ⟨hresult, hlog⟩ := (hrecorded.conclude ho entries.length how).close ho
      cases hr
      rw [end_, hresult]
      exact hlog

theorem watch_logs : Sink.Watch.observers.Logs (·.findings) where
  now _ := rfl
  progress _ _ _ _ := rfl
  write w r sink h := by
    refine ⟨w.clock, ?_⟩
    simp only [Sink.Watch.observers, h]
    exact ⟨rfl, rfl⟩
  close w r sink h := by
    refine ⟨w.clock, ?_⟩
    simp only [Sink.Watch.observers, h]
    exact ⟨rfl, rfl⟩

/-- **The file of findings is a faithful record.**  Whatever it is told, and whenever, what it appends to the lines of before
is one line for each result that it is given before it is first closed, in order, and then, once it is closed, one line with
the summary; only results that come after that fail.  No line has a line feed inside, so the text falls into these lines
again.  As the sink of a run that returns, it has a line for each file of the result that is returned, and the summary of
that result. -/
theorem findings_recorded {σ : Type} (o : Observers σ) (log? : σ → Option JsonLines) (analyze : Analyze) (token : Token)
    (selection : Selection) (listing : Listing) (path : String) (before : List String) :
    (∀ calls : List (Clock × Told),
      let sink : JsonLines := { path, lines := before }
      let served := sink.serveAll calls
      let writes := calls.takeWhile (·.2.isWrite)
      let rest := calls.dropWhile (·.2.isWrite)
      let added := writes.map callLine ++ (rest.take 1).map callLine
      served.2 = { path, isOpen := rest.isEmpty, lines := before ++ added } ∧
      served.1.map (·.map Failure.kind) =
        writes.map (fun _ => none) ++ rest.map (fun call => if call.2.isWrite then some "ValueError" else none) ∧
      served.2.text = sink.text ++ Text.ofLines added ∧
      (∀ line ∈ added, '\n' ∉ line.toList) ∧
      Text.splitOn '\n' (Text.ofLines added).toList = added.map String.toList ++ [[]]) ∧
    (o.Logs log? → ∀ state r, log? state = some { path, lines := before } →
      (repository analyze o token selection listing state).result = .ok r →
      ∃ times last, times.length = r.files.length ∧
        log? (repository analyze o token selection listing state).state = some
          { path, isOpen := false,
            lines := before ++ (List.zipWith fileLine r.files times ++ [summaryLine r last]) }) ∧
    Sink.Watch.observers.Logs (·.findings) := by
  refine ⟨fun calls => ?_, fun ho state r h hr => repository_recorded ho analyze token selection listing h hr, watch_logs⟩
  intro sink served writes rest added
  have hserved : served = _ := JsonLines.serveAll_calls path calls before
  have hlines : ∀ line ∈ added, '\n' ∉ line.toList := by
    intro line hline
    have hadded : added = (writes ++ rest.take 1).map callLine := List.map_append.symm
    rw [hadded] at hline
    obtain ⟨call, -, rfl⟩ := List.mem_map.1 hline
    exact call.2.newline_notMem_line _
  refine ⟨by rw [hserved], ?_, ?_, hlines, Text.splitOn_ofLines added hlines⟩
  · rw [hserved, List.map_append, List.map_map, List.map_map]
    congr 1
    refine List.map_congr_left fun call _ => ?_
    rcases call with ⟨clock, _ | _⟩ <;> rfl
  · rw [hserved]
    exact Text.ofLines_append before added

/-- A run over one script that is watched has written the line of the script and the summary. -/
theorem script_recorded :
    let out := repository ({ parse := hostParse .bare false } : FileAnalyzer).known Sink.Watch.observers Token.never
      { exclude := [] } { entries := [.ofText "a.js" "let x = 1;"] }
      { findings := some { path := "findings.jsonl" }, clock := .ticking ⟨0⟩ 0 }
    ∃ r times last, out.result = .ok r ∧ times.length = r.files.length ∧
      out.state.findings = some
        { path := "findings.jsonl", isOpen := false,
          lines := [] ++ (List.zipWith fileLine r.files times ++ [summaryLine r last]) } := by
  intro out
  obtain ⟨r, hr⟩ : ∃ r, out.result = .ok r := ⟨_, rfl⟩
  obtain ⟨times, last, hlog⟩ := (findings_recorded Sink.Watch.observers (·.findings)
    ({ parse := hostParse .bare false } : FileAnalyzer).known Token.never { exclude := [] }
    { entries := [.ofText "a.js" "let x = 1;"] } "findings.jsonl" []).2.1 watch_logs
    { findings := some { path := "findings.jsonl" }, clock := .ticking ⟨0⟩ 0 } r rfl hr
  exact ⟨r, times, last, hr, hlog⟩

end Run
end CodeReview
