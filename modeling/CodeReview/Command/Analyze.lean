import CodeReview.Command.Basic
import CodeReview.Files.Listing
import CodeReview.Preflight
import CodeReview.Report.Render
import CodeReview.Sink.Watch
/-!
# Analyzing a repository from the command line

What is chosen on the command line goes before the settings: the format, the output and the severity that
makes the run fail replace what is set, exclusions are added to those that are set, and inclusions replace
them. The exit code tells whether there are findings at or above that severity.
-/
namespace CodeReview.Command

structure Plan where
  format : ReportFormat
  /-- The mildest severity that makes the run fail. -/
  threshold : Severity
  /-- The file that the report goes to. -/
  output : Option Path
  selection : Selection
  deriving DecidableEq, Repr, Inhabited

namespace Plan

inductive Refusal where
  | format (name : String)
  | failOn (e : Severity.Invalid)
  | output (value : Value)

/-- A choice that has been made; an empty one counts as none. -/
def chosen (choice : Option String) : Option String := choice.filter (· != "")

def formatOf (s : Settings) (c : Choices) : Except Refusal ReportFormat :=
  match chosen c.format with
  | none => .ok s.format
  | some name =>
    match ReportFormat.ofName? name with
    | some f => .ok f
    | none => .error (.format name)

def thresholdOf (s : Settings) (c : Choices) : Except Refusal Severity :=
  match chosen c.failOn with
  | none => .ok s.failOn
  | some name => (Severity.read name).mapError .failOn

def outputOf (s : Settings) (c : Choices) : Except Refusal (Option Path) :=
  match c.output with
  | some path => .ok (some path)
  | none =>
    if s.output.isEmpty then .ok none
    else match s.output with
      | .text path => .ok (some (Path.ofString path))
      | v => .error (.output v)

def selectionOf (s : Settings) (c : Choices) : Selection where
  exclude := s.selection.exclude ++ c.exclude
  include_ := if c.include_.isEmpty then s.selection.include_ else c.include_

def make (s : Settings) (c : Choices) : Except Refusal Plan := do
  let format ← formatOf s c
  let threshold ← thresholdOf s c
  let output ← outputOf s c
  return ⟨format, threshold, output, selectionOf s c⟩

def refuse {α : Type} : Refusal → Action α
  | .format name =>
    Action.fail ("Invalid format: " ++ name ++ ". Valid: " ++ Text.quotedList ReportFormat.names)
  | .failOn e => Action.fail ("--fail-on: " ++ e.message)
  | .output value => throw (.fault (.notAPath value))

end Plan

/-- The exit code of a run, given the mildest severity that makes it fail. -/
def exitCode (r : RepositoryResult) (threshold : Severity) : ExitCode :=
  if r.state == .cancelled then .failure
  else if 0 < r.tally.atOrAbove threshold then .findings
  else .success

def exitLog (r : RepositoryResult) (threshold : Severity) : List Log.Record :=
  match exitCode r threshold with
  | .findings => [Log.info Log.root (toString (r.tally.atOrAbove threshold) ++
      " finding(s) at or above " ++ threshold.name)]
  | _ => []

def openFindings (m : Machine) (path : Path) : Action Sink.JsonLines := do
  Action.makeFolders m path.parent
  Action.appendText m path ""
  return { path := path.toString }

def watchedRun (m : Machine) (s : Settings) (selection : Selection) (folder : Place)
    (findings : Option Sink.JsonLines) (now : State) : Run.Outcome Sink.Watch :=
  let analyzer := { s.analyzer m.host with clock := m.timer, elapsed := m.elapsed }
  Run.repository analyzer.known Sink.Watch.observers Run.Token.never selection
    (now.files.listing folder (some selection) "utf-8") { findings, clock := now.clock }

def analyzeFolder (m : Machine) (s : Settings) (selection : Selection) (folder : Place)
    (findings : Option Path) : Action RepositoryResult := do
  let sink ← findings.mapM (openFindings m)
  let outcome := watchedRun m s selection folder sink (← get)
  modify fun st => { st with clock := outcome.state.clock }
  Action.tellAll outcome.log
  if let some path := findings then Action.appendText m path outcome.state.text
  match outcome.result with
  | .ok r => return r
  | .error why => Action.fail ("Analysis failed: " ++ why.message)

def deliver (m : Machine) (output : Option Path) (report : String) : Action Unit := do
  match output with
  | none => Action.print report
  | some path =>
    Action.makeFolders m path.parent
    Action.writeText m path report
    Action.tell (Log.info Log.root ("Report written to: " ++ path.toString))

/-- Analyzes a repository and delivers the report on it; what is given back is by which plan, and the result. -/
def report (m : Machine) (s : Settings) (path : Path) (c : Choices) : Action (Plan × RepositoryResult) := do
  Action.demandFolder m path
  let folder := Files.placeOf m.here path
  match Plan.make s c with
  | .error e => Plan.refuse e
  | .ok plan =>
    let runtime := Preflight.checkRuntime m.host true
    if !runtime.available then Action.fail ("Preflight check failed: " ++ runtime.message)
    Action.tell (Log.info Log.root ("Analyzing repository: " ++ Files.placeText folder))
    let result ← analyzeFolder m s plan.selection folder c.findings
    let report := Report.render plan.format (Files.pathOf folder).name result
    Action.tellAll (Report.renderLog plan.format report)
    deliver m plan.output report
    return (plan, result)

def analyze (m : Machine) (s : Settings) (path : Path) (c : Choices) : Action ExitCode := do
  let (plan, result) ← report m s path c
  Action.tellAll (exitLog result plan.threshold)
  return exitCode result plan.threshold

end CodeReview.Command
