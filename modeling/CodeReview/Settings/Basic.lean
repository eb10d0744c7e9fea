import CodeReview.Path.Filter
import CodeReview.Report.Format
import CodeReview.Rule.Override
import CodeReview.Run.File
import CodeReview.Settings.Variables
/-!
# Settings

What a run can be told: which files it analyzes and how long each may take, which rules it changes, how it
reports, and when it counts as failed. Settings are read from a table of four sections, after the
variables in all of it have been filled. A section that is empty or missing leaves its defaults; unknown
entries are ignored, except among the rules. The first thing wrong, in a fixed order, decides the error.
-/
namespace CodeReview

open Number (Quantity)

structure Settings where
  selection : Selection := {}
  /-- How many seconds each file may take. -/
  timeout : Quantity := .decimal 30.0
  /-- Whether files with syntax errors are analyzed as far as they go. -/
  tolerant : Bool := false
  /-- The mildest severity that is kept. -/
  minSeverity : Severity := .low
  /-- The overrides of rules, as they were written. -/
  overrides : Entries Value := []
  /-- The rules that follow from the overrides. -/
  rules : RuleSet := .builtin
  format : ReportFormat := .text
  /-- Where the report goes, as it was written. -/
  output : Value := .null
  /-- The mildest severity that makes a run fail. -/
  failOn : Severity := .high

namespace Settings

inductive Invalid where
  | unset (u : Unset)
  | notATable (given : Value)
  | notASection (name : String)
  | timeoutSort (value : Value)
  | timeoutRange (value : Quantity)
  | notASwitch (name : String) (value : Value)
  | severity (e : Severity.Invalid)
  | notPatterns (name : String)
  | format (value : Value)
  | rule (e : OverrideError)

def Invalid.message : Invalid → String
  | .unset u => u.message
  | .notATable given => "'" ++ given.sortName ++ "' object has no attribute 'get'"
  | .notASection name => "Config section '" ++ name ++ "' must be a mapping"
  | .timeoutSort value => "file_timeout must be a number (got " ++ value.literal ++ ")"
  | .timeoutRange value => "file_timeout must be positive (got " ++ (Value.ofQuantity value).literal ++ ")"
  | .notASwitch name value => name ++ " must be true or false (got " ++ value.literal ++ ")"
  | .severity e => e.message
  | .notPatterns name => name ++ " must be a list of strings"
  | .format value =>
    "Invalid output format: " ++ value.display ++ ". Valid: " ++ Text.quotedList ReportFormat.names
  | .rule e => e.message

/-! ## Reading the parts -/

def section? (data : Value) (name : String) : Except Invalid Value :=
  match (data.get? name).filter (!·.isEmpty) with
  | none => .ok (.map [])
  | some v => if v.isTable then .ok v else .error (.notASection name)

def readTimeout : Option Value → Except Invalid Quantity
  | none => .ok (.decimal 30.0)
  | some (.int n) => positive (.whole n)
  | some (.float x) => positive (.decimal x)
  | some v => .error (.timeoutSort v)
where
  /-- A quantity that has to be positive. -/
  positive (q : Quantity) : Except Invalid Quantity :=
    if q.isPositive then .ok q else .error (.timeoutRange q)

/-- A switch: a truth value, or its name in any case and with blanks around it. No letter outside ASCII
becomes one of the names' letters in lower case. -/
def readSwitch (name : String) (default : Bool) : Option Value → Except Invalid Bool
  | none => .ok default
  | some (.bool b) => .ok b
  | some (.text s) =>
    let word := (Text.strip s).toLower
    if word == "true" then .ok true
    else if word == "false" then .ok false
    else .error (.notASwitch name (.text s))
  | some v => .error (.notASwitch name v)

/-- A severity: whatever is written is read by its text. -/
def readSeverity (default : Severity) : Option Value → Except Invalid Severity
  | none => .ok default
  | some v => (Severity.read v.display).mapError .severity

def readPatterns (name : String) (default : List String) : Option Value → Except Invalid (List String)
  | none => .ok default
  | some (.list vs) => vs.mapM fun v =>
    match v with
    | .text s => .ok s
    | _ => .error (.notPatterns name)
  | some _ => .error (.notPatterns name)

def readFormat : Option Value → Except Invalid ReportFormat
  | none => .ok .text
  | some (.text s) =>
    match ReportFormat.ofName? s with
    | some f => .ok f
    | none => .error (.format (.text s))
  | some v => .error (.format v)

/-! ## Reading the whole -/

/-- Settings of a table whose variables have been filled. -/
def ofFilled (data : Value) : Except Invalid Settings := do
  if !data.isTable then throw (.notATable data)
  let analysis ← section? data "analysis"
  let timeout ← readTimeout (analysis.get? "file_timeout")
  let tolerant ← readSwitch "tolerant_parsing" false (analysis.get? "tolerant_parsing")
  let minSeverity ← readSeverity .low (analysis.get? "min_severity")
  let exclude ← readPatterns "exclude_paths" defaultExcludes (analysis.get? "exclude_paths")
  let include_ ← readPatterns "include_paths" [] (analysis.get? "include_paths")
  let output ← section? data "output"
  let format ← readFormat (output.get? "format")
  let ci ← section? data "ci"
  let failOn ← readSeverity .high (ci.get? "fail_on")
  let overrides ← section? data "rules"
  let rules ← (RuleSet.builtin.withOverrides overrides.entries).mapError .rule
  return {
    selection := ⟨exclude, include_⟩
    timeout
    tolerant
    minSeverity
    overrides := overrides.entries
    rules
    format
    output := (output.get? "path").getD .null
    failOn }

def ofValue (env : Environment) (data : Value) : Except Invalid Settings := do
  ofFilled (← (fill env data).mapError .unset)

/-! ## File analyzers -/

def analyzer (s : Settings) (host : Grammar.Host) : Run.FileAnalyzer where
  rules := s.rules
  parse := Run.hostParse host s.tolerant
  timeout := some s.timeout
  minSeverity := s.minSeverity

end Settings
end CodeReview
