import CodeReview.Calendar.Clock
import CodeReview.Path.Filter
import CodeReview.Result.Repository
import CodeReview.Run.Entry
import CodeReview.Run.File
import CodeReview.Value.Literal
/-!
# Analyzing a repository

The selected entries of a listing are analyzed one after the other. Before each of them a token is looked
at, which can call the run off; after each of them progress is reported; results go to a sink. Progress and
sink are *observers*: they have a state of their own, and when one of them fails the run notes an error and
goes on. Only a failing token or a failing listing ends a run without a result.

A run tells which calls it has made of the token, of the entries and of the observers (`Call`), in order.
-/
namespace CodeReview.Run

open Calendar (Instant)
open Grammar (Session)

structure Reply (σ : Type) where
  failure : Option Failure := none
  state : σ
  log : List Log.Record := []

/-- Those who watch a run, with a state of their own, and the clock they share with it. -/
structure Observers (σ : Type) where
  now : σ → Instant × σ
  progress : σ → (processed total : Nat) → (phase : String) → Reply σ
  write : σ → FileResult → Reply σ
  close : σ → RepositoryResult → Reply σ

def Observers.idle {σ : Type} (now : σ → Instant × σ) : Observers σ where
  now
  progress s _ _ _ := { state := s }
  write s _ := { state := s }
  close s _ := { state := s }

inductive Call where
  /-- The token is looked at. -/
  | look
  /-- An entry is read. -/
  | read (path : String)
  /-- A file's result goes to the sink; `failed` tells whether the sink failed. -/
  | write (result : FileResult) (failed : Bool)
  /-- Progress is reported; `failed` tells whether that failed. -/
  | progress (processed total : Nat) (phase : String) (failed : Bool)
  /-- The sink is closed; `failed` tells whether that failed. -/
  | close (result : RepositoryResult) (failed : Bool)

def Call.failed : Call → Bool
  | .look | .read _ => false
  | .write _ failed | .progress _ _ _ failed | .close _ failed => failed

/-- A token that calls a run off: what the n-th look at it gives, counted from one. -/
abbrev Token := Nat → Except Failure Bool

def Token.never : Token := fun _ => .ok false

/-- How the entries of a run are analyzed: given what has been loaded, a path, a text and its language. -/
abbrev Analyze := Session → (path text language : String) → Except Failure Analyzed

/-- Analysis by a file analyzer, the language being known. -/
def FileAnalyzer.known (a : FileAnalyzer) : Analyze :=
  fun session path text language => a.analyze session path text (some language)

structure Work (σ : Type) where
  result : RepositoryResult
  processed : Nat := 0
  session : Session := {}
  state : σ
  calls : List Call := []
  log : List Log.Record := []

namespace Work

variable {σ : Type}

def tell (w : Work σ) (r : Log.Record) : Work σ := { w with log := w.log ++ [r] }

def note (w : Work σ) (c : Call) : Work σ := { w with calls := w.calls ++ [c] }

def addError (w : Work σ) (e : RunError) : Work σ := { w with result := w.result.addError e }

/-- Takes the reply of an observer; a failure becomes a message and an error. -/
def hear (w : Work σ) (reply : Reply σ) (told : Failure → Log.Record) (component : String)
    (filePath : Option String) : Work σ :=
  let w := { w with state := reply.state, log := w.log ++ reply.log }
  match reply.failure with
  | none => w
  | some why => (w.tell (told why)).addError { component, message := why.message, filePath }

def report (o : Observers σ) (total : Nat) (phase : String) (w : Work σ) : Work σ :=
  let reply := o.progress w.state w.processed total phase
  let told (why : Failure) := Log.warning speaker
    ("Progress sink failed at " ++ toString w.processed ++ "/" ++ toString total ++ ": " ++ why.message)
  (w.note (.progress w.processed total phase reply.failure.isSome)).hear reply told "progress" none

def hand (o : Observers σ) (path : String) (r : FileResult) (w : Work σ) : Work σ :=
  let reply := o.write w.state r
  let told (why : Failure) := Log.error speaker
    ("Finding sink failed for " ++ path ++ ": " ++ why.message)
  (w.note (.write r reply.failure.isSome)).hear reply told "sink" (some path)

def close (o : Observers σ) (w : Work σ) : Work σ :=
  let reply := o.close w.state w.result
  let told (why : Failure) := Log.error speaker ("Finding sink failed to close: " ++ why.message)
  (w.note (.close w.result reply.failure.isSome)).hear reply told "sink" none

def fold (w : Work σ) (a : Analyzed) : Work σ :=
  { w with
    result := a.result.errors.foldl RepositoryResult.addError (w.result.addFile a.result)
    session := a.session
    log := w.log ++ a.log }

def analyzeText (o : Observers σ) (analyze : Analyze) (path text language : String) (w : Work σ) :
    Work σ :=
  match analyze w.session path text language with
  | .error why =>
    (w.tell (Log.error speaker ("Unexpected failure analyzing " ++ path ++ ": " ++ why.message))).addError
      { component := "engine", message := why.message, filePath := some path }
  | .ok a => (w.fold a).hand o path a.result

/-- Analyzes one entry: it is read only if its language is one that is analyzed. -/
def analyzeEntry (o : Observers σ) (analyze : Analyze) (e : Entry) (w : Work σ) : Work σ :=
  match Language.ofPath? e.path with
  | none => w.tell (Log.debug speaker ("Skipping " ++ e.path ++ ": unsupported language"))
  | some language =>
    let w := w.note (.read e.path)
    match e.read with
    | .error u =>
      (w.tell (Log.warning speaker ("Skipping " ++ e.path ++ ": " ++ u.message))).addError
        { component := "provider", message := u.message, filePath := some e.path }
    | .ok text => w.analyzeText o analyze e.path text language.name

def analyzing : String := "analyzing"

def process (o : Observers σ) (analyze : Analyze) (total : Nat) (w : Work σ) (e : Entry) : Work σ :=
  (({ w with processed := w.processed + 1 } : Work σ).analyzeEntry o analyze e).report o total analyzing

/-- Analyzes entries until they are done, the token calls the run off, or the token fails. What is given
beside the work is the state the run ends in, or the token's failure. -/
def processAll (o : Observers σ) (analyze : Analyze) (token : Token) (total : Nat) :
    List Entry → Work σ → Except Failure RunState × Work σ
  | [], w => (.ok .completed, w)
  | e :: rest, w =>
    let w' := w.note .look
    match token (w.processed + 1) with
    | .error why => (.error why, w')
    | .ok true =>
      (.ok .cancelled, w'.tell (Log.info speaker
        ("Analysis cancelled after " ++ toString w.processed ++ " of " ++ toString total ++ " files")))
    | .ok false => processAll o analyze token total rest (w'.process o analyze total e)

/-- Finishes the result, in a state, with a last report of progress. -/
def conclude (o : Observers σ) (total : Nat) (state : RunState) (w : Work σ) : Work σ :=
  let (time, s) := o.now w.state
  ({ w with result := w.result.finalize state time, state := s } : Work σ).report o total state.name

end Work

/-- How a run ended: with a result or a failure, what its observers have become, the calls it has made,
and what was told. -/
structure Outcome (σ : Type) where
  result : Except Failure RepositoryResult
  state : σ
  session : Session
  calls : List Call
  log : List Log.Record

def closingRecord (r : RepositoryResult) (total : Nat) : Log.Record where
  level := Log.infoLevel
  logger := speaker
  message := "Analysis " ++ r.state.name ++ ": " ++ toString r.analyzedFiles ++ "/" ++ toString total ++
    " files analyzed, " ++ toString r.totalIssues ++ " issues, score " ++ (Value.int? r.score).display
  fields := [
    ("status", .text r.state.name),
    ("analyzed_files", .nat r.analyzedFiles),
    ("total_files", .nat total),
    ("tally", r.tally.toValue),
    ("score", .int? r.score)]

def openingRecord (total filtered : Nat) : Log.Record :=
  Log.info speaker ("Starting repository analysis: " ++ toString total ++ " files (" ++
    toString filtered ++ " filtered out)")

def selected (selection : Selection) (entries : List Entry) : List Entry :=
  entries.filter fun e => selection.accepts e.path

def begin_ {σ : Type} (o : Observers σ) (listing : Listing) (total : Nat) (state : σ) : Work σ :=
  let (time, state) := o.now state
  { result := { totalFiles := total, state := .running, startedAt := time }
    state
    log := listing.log ++ [openingRecord total (listing.entries.length - total)] }

/-- How a run ends that has processed its entries: the sink is closed in any case. -/
def end_ {σ : Type} (o : Observers σ) (total : Nat) : Except Failure RunState × Work σ → Outcome σ
  | (.error why, w) =>
    let w := w.close o
    ⟨.error why, w.state, w.session, w.calls, w.log⟩
  | (.ok state, w) =>
    let w := (w.conclude o total state).close o
    ⟨.ok w.result, w.state, w.session, w.calls, w.log ++ [closingRecord w.result total]⟩

def repository {σ : Type} (analyze : Analyze) (o : Observers σ) (token : Token) (selection : Selection)
    (listing : Listing) (state : σ) : Outcome σ :=
  match listing.failure with
  | some why => ⟨.error why, state, {}, [], listing.log⟩
  | none =>
    let entries := selected selection listing.entries
    let total := entries.length
    end_ o total (Work.processAll o analyze token total entries (begin_ o listing total state))

end CodeReview.Run
