import CodeReview.Calendar.Date
import CodeReview.Result.File
import CodeReview.Result.Score
/-!
# Repository results

The results of the files of a repository, added up as they come in. The counters stand beside the lists
they count: `addFile` keeps them in step. Finishing stamps the end, the score and the complexity summary.
-/
namespace CodeReview

open Calendar (Instant)

inductive RunState where
  | pending
  | running
  | completed
  | cancelled
  | failed
  deriving DecidableEq, Repr, Inhabited

namespace RunState

def all : List RunState := [.pending, .running, .completed, .cancelled, .failed]

def name : RunState → String
  | .pending => "pending"
  | .running => "running"
  | .completed => "completed"
  | .cancelled => "cancelled"
  | .failed => "failed"

def ofName? (s : String) : Except UnknownName RunState :=
  match all.find? (·.name == s) with
  | some v => .ok v
  | none => .error ⟨"AnalysisStatus", s⟩

end RunState

/-! ## Complexity over all files -/

/-- The complexity of the files that have one. -/
structure ComplexitySummary where
  average : Float := 0.0
  max : Int := 0
  files : List (String × Int) := []

namespace ComplexitySummary

/-- The paths and complexities of the files whose complexity is positive. -/
def entries (fs : List FileResult) : List (String × Int) :=
  (fs.map fun f => (f.path, f.metrics.complexity)).filter fun e => 0 < e.2

def sumOf (ns : List Int) : Int := ns.foldl (· + ·) 0

/-- The average of positive numbers, to two places. -/
def averageOf (ns : List Int) : Float := Number.roundPlaces 2 (Number.ofRatio (sumOf ns).toNat ns.length)

/-- The greatest of positive numbers, zero if there is none. -/
def greatest (ns : List Int) : Int := ns.foldl (fun m n => if m < n then n else m) 0

def ofFiles (fs : List FileResult) : ComplexitySummary :=
  match entries fs with
  | [] => {}
  | es => ⟨averageOf (es.map (·.2)), greatest (es.map (·.2)), es⟩

/-- Whether the average of files is in the range of doubles. -/
def hasAverage (fs : List FileResult) : Bool :=
  let ns := (entries fs).map (·.2)
  ns.isEmpty || Number.fitsFloat (sumOf ns) ns.length

def toValue (c : ComplexitySummary) : Value := .map [
  ("average", .float c.average),
  ("max", .int c.max),
  ("files", .list (c.files.map fun e =>
    .map [("path", .text e.1), ("complexity", .int e.2)]))]

end ComplexitySummary

/-! ## The result -/

structure RepositoryResult where
  /-- The number of files that were selected. -/
  totalFiles : Int := 0
  /-- The number of files whose analysis is done. -/
  analyzedFiles : Nat := 0
  tally : Tally := {}
  totalLines : Int := 0
  /-- The results of files, in processing order. -/
  files : List FileResult := []
  /-- The findings of all files, in processing order. -/
  findings : List Finding := []
  state : RunState := .pending
  errors : List RunError := []
  startedAt : Instant
  finishedAt : Option Instant := none
  score : Option Int := none
  complexity : ComplexitySummary := {}

namespace RepositoryResult

def totalIssues (r : RepositoryResult) : Int := r.tally.total

/-- The languages of the files, sorted, each once. -/
def languages (r : RepositoryResult) : List String :=
  (((r.files.filterMap (·.language)).filter (· != "")).eraseDups).mergeSort fun a b => a ≤ b

/-- How long the run took, in seconds, once it is finished. -/
def duration (r : RepositoryResult) : Option Float :=
  r.finishedAt.map fun t =>
    let micros := t.micros - r.startedAt.micros
    let seconds := Number.ofRatio micros.natAbs 1000000
    if micros < 0 then -seconds else seconds

def addFile (r : RepositoryResult) (f : FileResult) : RepositoryResult :=
  { r with
    files := r.files ++ [f]
    findings := r.findings ++ f.findings
    analyzedFiles := r.analyzedFiles + 1
    totalLines := r.totalLines + f.metrics.lines
    tally := r.tally.addAll f.findings }

def addError (r : RepositoryResult) (e : RunError) : RepositoryResult :=
  { r with errors := r.errors ++ [e] }

def currentScore (r : RepositoryResult) : Int := r.tally.score r.totalLines

/-- The score of the findings so far; with findings, the number of lines must be in the range of doubles. -/
def checkedScore (r : RepositoryResult) : Except Failure Int :=
  if r.totalIssues == 0 || Number.fitsFloat r.totalLines 1 then .ok r.currentScore else .error .hugeInteger

def stamp (r : RepositoryResult) (state : RunState) (now : Instant) : RepositoryResult :=
  { r with state, finishedAt := some now }

/-- Finishes a run in a state, at a time. The numbers of files that have been read are in the range of
doubles; `checkedFinalize` is for numbers of any size. -/
def finalize (r : RepositoryResult) (state : RunState) (now : Instant) : RepositoryResult :=
  { r.stamp state now with
    score := some r.currentScore
    complexity := .ofFiles r.files }

/-- Finishes a run in a state, at a time. State and time are set in any case, then the score, then the
complexity summary; a number outside the range of doubles ends this early. -/
def checkedFinalize (r : RepositoryResult) (state : RunState) (now : Instant) :
    Option Failure × RepositoryResult :=
  match r.checkedScore with
  | .error why => (some why, r.stamp state now)
  | .ok score =>
    if ComplexitySummary.hasAverage r.files then (none, r.finalize state now)
    else (some .hugeQuotient, { r.stamp state now with score := some score })

def summary (r : RepositoryResult) : Value := .map [
  ("total_files", .int r.totalFiles),
  ("analyzed_files", .nat r.analyzedFiles),
  ("total_issues", .int r.totalIssues),
  ("critical_issues", .int r.tally.critical),
  ("high_issues", .int r.tally.high),
  ("medium_issues", .int r.tally.medium),
  ("low_issues", .int r.tally.low),
  ("total_lines", .int r.totalLines),
  ("score", .int? r.score)]

def toEntries (r : RepositoryResult) : Entries Value := [
  ("status", .text r.state.name),
  ("summary", r.summary),
  ("languages", .texts r.languages),
  ("complexity", r.complexity.toValue),
  ("started_at", .text r.startedAt.iso),
  ("finished_at", .text? (r.finishedAt.map (·.iso))),
  ("files", .list (r.files.map (·.toValue))),
  ("errors", .list (r.errors.map (·.toValue)))]

def toValue (r : RepositoryResult) : Value := .map r.toEntries

end RepositoryResult
end CodeReview
