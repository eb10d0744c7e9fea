import CodeReview.Analyzer.Registry
import CodeReview.Grammar.Parser
import CodeReview.Log.Record
import CodeReview.Result.File
import CodeReview.Text.Lines
/-!
# Analyzing one file

A file is parsed, its tree goes through the analyzers in the order of the registry, and its metrics are
collected. Once its time budget has begun nothing fails: a file without a tree has one finding that says why,
and an analyzer that fails leaves an error and no findings. Only a budget that is no double cannot begin.

A time budget is all or nothing. When it is spent, whatever has been found is dropped and the result is
that of a file without a tree (`unparsed`), with one error of the engine.
-/
namespace CodeReview.Run

open Grammar (Parsed ParseError Session)
open Syntax (Deadline Metrics)

/-- What makes canonical trees: given what has been loaded, a path, a text, its language, and what is
left of a time budget. -/
abbrev Parse :=
  Session → (path text language : String) → Option Deadline → Parsed Syntax.Node × Option Deadline

def hostParse (host : Grammar.Host) (tolerant : Bool) : Parse :=
  fun session _ text language deadline => Grammar.parse host tolerant session text language deadline

/-- The number of seconds that a file may take if nothing else is said. -/
def defaultTimeout : Number.Quantity := .decimal 30.0

structure FileAnalyzer where
  rules : RuleSet := .builtin
  parse : Parse
  registry : Registry := .builtin
  /-- The time budget of a file, in seconds; none, or zero, for no limit. -/
  timeout : Option Number.Quantity := some defaultTimeout
  /-- The mildest severity that is kept. -/
  minSeverity : Severity := .low
  /-- The readings of the clock of each file's time budget. -/
  clock : Nat → Number.Quantity := fun _ => .decimal 0.0
  /-- What collects the metrics of a tree. -/
  collect : Syntax.Node → (lines : Int) → Option Deadline → Except Failure Metrics × Option Deadline :=
    Syntax.collectMetrics
  /-- How long an analysis takes, in seconds. -/
  elapsed : Float := 0.0

/-- A file's result, what is loaded now, and what was told. -/
structure Analyzed where
  result : FileResult
  session : Session
  log : List Log.Record

def speaker : String := Log.part "engine"

def eventLog : Grammar.Event → List Log.Record
  | .asked _ => []
  | .loaded grammar => [Log.debug Log.root ("Initialized tree-sitter parser for " ++ grammar)]

namespace FileAnalyzer

/-- Whether a finding is kept: it is severe enough, or tells of a file without a tree. -/
def keeps (a : FileAnalyzer) (f : Finding) : Bool :=
  decide (a.minSeverity ≤ f.severity) || f.rule.id == parseErrorId

/-- The identifier of a finding by its place among the findings of its file, counted from one. -/
def numberedId (path : String) (f : Finding) (ordinal : Nat) : String :=
  f.rule.id ++ ":" ++ path ++ ":" ++ toString f.line ++ ":" ++ toString ordinal

def number (path : String) (fs : List Finding) : List Finding :=
  (fs.zipIdx 1).map fun f => f.1.withId (numberedId path f.1 f.2)

/-- The findings of a file as they are reported: those that are kept, numbered. -/
def finish (a : FileAnalyzer) (path : String) (fs : List Finding) : List Finding :=
  number path (fs.filter a.keeps)

/-! ## Files without a tree -/

def unparsedRule (a : FileAnalyzer) : Rule := (a.rules.find? parseErrorId).getD parseErrorRule

def unparsedFinding (a : FileAnalyzer) (path message : String) (timedOut : Bool) : Finding :=
  let rule := a.unparsedRule
  { id := ""
    category := rule.category
    severity := .high
    title := "Parse Error"
    description := "Failed to parse file: " ++ message
    location := { path, line := 1, column := 1 }
    rule := ⟨parseErrorId, rule.name, rule.category, rule.documentation, by decide⟩
    metadata := if timedOut then [("tags", .texts ["timeout"])] else [] }

/-- The result of a file without a tree, or one that took too long. -/
def unparsed (a : FileAnalyzer) (path language : String) (lines : Nat) (message : String)
    (timedOut : Bool) : FileResult where
  path
  language := some language
  metrics := { lines }
  findings := a.finish path [a.unparsedFinding path message timedOut]
  errors := if timedOut then [{ component := "engine", message, filePath := some path }] else []
  parsed := false
  duration := .decimal a.elapsed

def parseFailed (a : FileAnalyzer) (path language : String) (lines : Nat) (e : ParseError) :
    FileResult × Log.Record :=
  let told (what : String) := what ++ path ++ ": " ++ e.message
  match e with
  | .failed (.timeout _) =>
    (a.unparsed path language lines e.message true, Log.warning speaker (told "Timed out parsing "))
  | .failed why =>
    (a.unparsed path language lines e.message false,
      { Log.error speaker (told "Parser crashed on ") with failure := some why.message })
  | _ => (a.unparsed path language lines e.message false, Log.info speaker (told "Failed to parse "))

/-! ## The passes over a tree -/

structure Passes where
  findings : List Finding := []
  errors : List RunError := []
  log : List Log.Record := []
  deadline : Option Deadline
  /-- The failure of the time budget, which ends everything. -/
  spent : Option Failure := none

def Passes.failed (p : Passes) (component path told : String) (why : Failure) : Passes :=
  { p with
    errors := p.errors ++ [{ component, message := why.message, filePath := some path }]
    log := p.log ++ [Log.warning speaker (told ++ " failed on " ++ path ++ ": " ++ why.message)] }

/-- Runs one analyzer, if it applies and the time budget is not spent. -/
def Passes.analyze (c : Context) (root : Syntax.Node) (p : Passes) (analyzer : Analyzer) : Passes :=
  if p.spent.isSome || !analyzer.applies c then p
  else
    let (outcome, deadline) := analyzer.analyze c root p.deadline
    let p := { p with deadline }
    match outcome with
    | .ok fs => { p with findings := p.findings ++ fs }
    | .error why =>
      if why.isTimeout then { p with spent := some why }
      else p.failed analyzer.name c.path ("Analyzer " ++ analyzer.name) why

/-- Collects the metrics; where that fails, only the number of lines is known. -/
def measure (a : FileAnalyzer) (path : String) (root : Syntax.Node) (lines : Nat) (p : Passes) :
    Metrics × Passes :=
  if p.spent.isSome then ({ lines }, p)
  else
    let (outcome, deadline) := a.collect root lines p.deadline
    let p := { p with deadline }
    match outcome with
    | .ok m => (m, p)
    | .error why =>
      ({ lines },
        if why.isTimeout then { p with spent := some why }
        else p.failed "metrics" path "Metrics collection" why)

def ofTree (a : FileAnalyzer) (path language : String) (lines : Nat) (root : Syntax.Node)
    (deadline : Option Deadline) : FileResult × List Log.Record :=
  let c : Context := ⟨path, language, a.rules⟩
  let passes := a.registry.analyzers.foldl (Passes.analyze c root) { deadline }
  let (metrics, passes) := a.measure path root lines passes
  match passes.spent with
  | some why =>
    (a.unparsed path language lines why.message true,
      passes.log ++ [Log.warning speaker ("Timed out analyzing " ++ path ++ ": " ++ why.message)])
  | none => ({
      path
      language := some language
      metrics
      findings := a.finish path passes.findings
      errors := passes.errors
      parsed := true
      duration := .decimal a.elapsed }, passes.log)

/-! ## The whole -/

/-- The language a file is analyzed in: the given one, unless it is empty, or that of its path. -/
def languageOf (path : String) (given : Option String) : Option String :=
  match given.filter (· != "") with
  | some language => some language
  | none => (Language.ofPath? path).map (·.name)

def budget (a : FileAnalyzer) : Except Failure (Option Deadline) :=
  (a.timeout.filter (!·.isZero)).mapM fun seconds => Deadline.start seconds a.clock

def analyzeWithin (a : FileAnalyzer) (session : Session) (path text language : String)
    (deadline : Option Deadline) : Analyzed :=
  let lines := Text.countLines text
  let (parsed, deadline) := a.parse session path text language deadline
  let log := parsed.events.flatMap eventLog
  match parsed.outcome with
  | .error e =>
    let (result, told) := a.parseFailed path language lines e
    ⟨result, parsed.session, log ++ [told]⟩
  | .ok root =>
    let (result, told) := a.ofTree path language lines root deadline
    ⟨result, parsed.session, log ++ told⟩

/-- The result of a file in a language; fails only where its time budget cannot begin. -/
def analyzeAs (a : FileAnalyzer) (session : Session) (path text language : String) :
    Except Failure Analyzed :=
  a.budget.map (a.analyzeWithin session path text language)

/-- The result of a file; empty if its language is not one that is analyzed. -/
def analyze (a : FileAnalyzer) (session : Session) (path text : String) (language : Option String) :
    Except Failure Analyzed :=
  match languageOf path language with
  | none => .ok
    ⟨{ path, language := none }, session,
      [Log.debug speaker ("Skipping " ++ path ++ ": unsupported language")]⟩
  | some language => a.analyzeAs session path text language

end FileAnalyzer
end CodeReview.Run
