import CodeReview.Command.Arguments
import CodeReview.Path.Basic
/-!
# The command line

General options, then the name of a command, then what belongs to the command. A line is read in two
steps, because the settings are loaded between them: a line whose second half is wrong is refused only if
its settings can be loaded.
-/
namespace CodeReview.Command

structure General where
  /-- The file with the settings. -/
  settings : Option Path := none
  verbose : Bool := false
  quiet : Bool := false
  /-- Whether the log is written for machines. -/
  machine : Bool := false
  /-- Whether only the version is asked for. -/
  version : Bool := false
  deriving DecidableEq, Repr, Inhabited

def generalSpecs : List OptionSpec := [
  ⟨"config", some 'c', true⟩,
  ⟨"verbose", some 'v', false⟩,
  ⟨"quiet", some 'q', false⟩,
  ⟨"ci", none, false⟩,
  ⟨"version", none, false⟩]

def General.read (args : List String) : Except UsageError (General × List String) := do
  let (a, rest) ← Arguments.readLeading generalSpecs args
  return ({
    settings := (a.value? "config").map Path.ofString
    verbose := a.has "verbose"
    quiet := a.has "quiet"
    machine := a.has "ci"
    version := a.has "version" }, rest)

/-! ## Commands -/

inductive Name where
  | analyze
  | file
  | rules
  | check
  | init
  deriving DecidableEq, Repr, Inhabited

namespace Name

def all : List Name := [.analyze, .file, .rules, .check, .init]

protected def toString : Name → String
  | .analyze => "analyze"
  | .file => "file"
  | .rules => "rules"
  | .check => "check"
  | .init => "init"

def read (s : String) : Except UsageError Name :=
  match all.find? (·.toString == s) with
  | some n => .ok n
  | none => .error (.unknownCommand s)

end Name

structure Choices where
  format : Option String := none
  output : Option Path := none
  exclude : List String := []
  include_ : List String := []
  failOn : Option String := none
  /-- The file that the findings are appended to. -/
  findings : Option Path := none
  deriving DecidableEq, Repr, Inhabited

inductive Request where
  | analyze (folder : Path) (choices : Choices)
  | file (path : Path) (asJson : Bool)
  | rules (asJson : Bool)
  | check (asJson : Bool)
  | init (force : Bool)
  deriving DecidableEq, Repr

def analyzeSpecs : List OptionSpec := [
  ⟨"format", some 'f', true⟩,
  ⟨"output", some 'o', true⟩,
  ⟨"exclude", some 'e', true⟩,
  ⟨"include", some 'i', true⟩,
  ⟨"fail-on", none, true⟩,
  ⟨"findings-log", none, true⟩]

def jsonSpecs : List OptionSpec := [⟨"json", none, false⟩]

/-- Reads what belongs to the analysis of a repository, which is that of the folder of the run unless
another is named. -/
def readAnalyze (args : List String) : Except UsageError Request := do
  let a ← Arguments.readAll analyzeSpecs 1 args
  return .analyze (Path.ofString (a.operands.head?.getD ".")) {
    format := a.value? "format"
    output := (a.value? "output").map Path.ofString
    exclude := a.values "exclude"
    include_ := a.values "include"
    failOn := a.value? "fail-on"
    findings := (a.value? "findings-log").map Path.ofString }

def readFile (args : List String) : Except UsageError Request := do
  let a ← Arguments.readAll jsonSpecs 1 args
  match a.operands with
  | path :: _ => return .file (Path.ofString path) (a.has "json")
  | [] => .error (.missingOperand "PATH")

def Request.read (name : Name) (args : List String) : Except UsageError Request :=
  match name with
  | .analyze => readAnalyze args
  | .file => readFile args
  | .rules => do return .rules ((← Arguments.readAll jsonSpecs 0 args).has "json")
  | .check => do return .check ((← Arguments.readAll jsonSpecs 0 args).has "json")
  | .init => do return .init ((← Arguments.readAll [⟨"force", none, false⟩] 0 args).has "force")

end CodeReview.Command
