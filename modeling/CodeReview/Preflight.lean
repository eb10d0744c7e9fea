import CodeReview.Grammar.Host
import CodeReview.Grammar.Table
import CodeReview.Value.Basic
/-!
# Preflight

Whether a host can parse the languages asked for: the parsing runtime is checked first and, if it is there,
every grammar that one of the languages needs, each once, in the order of first need. A language without a
grammar table counts as a missing dependency. The verdict is read off the checks: it is good if every
required dependency is available.
-/
namespace CodeReview

open Grammar (Host Package)

structure ToolCheck where
  name : String
  available : Bool
  version : Option String := none
  required : Bool := true
  path : Option String := none
  message : String := ""
  deriving DecidableEq, Repr, Inhabited

def ToolCheck.toValue (c : ToolCheck) : Value := .map [
  ("name", .text c.name),
  ("available", .bool c.available),
  ("version", .text? c.version),
  ("required", .bool c.required),
  ("path", .text? c.path),
  ("message", .text c.message)]

structure Preflight where
  checks : List ToolCheck := []
  deriving DecidableEq, Repr, Inhabited

namespace Preflight

/-- Whether every required dependency is available. -/
def success (p : Preflight) : Bool := p.checks.all fun c => c.available || !c.required

/-- One report for each required dependency that is not available. -/
def errors (p : Preflight) : List String :=
  (p.checks.filter fun c => !c.available && c.required).map fun c =>
    "Required dependency not available: " ++ c.name

/-- One report for each other dependency that is not available. -/
def warnings (p : Preflight) : List String :=
  (p.checks.filter fun c => !c.available && !c.required).map fun c =>
    "Optional dependency not available: " ++ c.name

def toValue (p : Preflight) : Value := .map [
  ("success", .bool p.success),
  ("checks", .list (p.checks.map (·.toValue))),
  ("errors", .texts p.errors),
  ("warnings", .texts p.warnings)]

/-! ## The runtime -/

def runtimeName : String := "tree-sitter"

def packName : String := "tree-sitter-language-pack"

def versionText (name : String) (p : Package) : String :=
  name ++ " " ++ (p.version.filter (· != "")).getD "?"

def missing (name : String) (required : Bool) : ToolCheck where
  name := runtimeName
  available := false
  required
  message := "Install with: pip install " ++ name

def checkRuntime (host : Host) (required : Bool) : ToolCheck :=
  if !host.runtime.isInstalled then missing runtimeName required
  else if !host.pack.isInstalled then missing packName required
  else {
    name := runtimeName
    available := true
    version := some (versionText runtimeName host.runtime ++ ", " ++ versionText packName host.pack)
    required
    path := host.runtime.place
    message := "Parser runtime (Python package)" }

/-! ## Grammars -/

def grammarName (grammar : String) : String := "grammar:" ++ grammar

def checkGrammar (host : Host) (grammar : String) (required : Bool) : ToolCheck :=
  let name := grammarName grammar
  if !host.pack.isInstalled then
    { name, available := false, required, message := packName ++ " not installed" }
  else match host.broken grammar with
    | some why => { name, available := false, required, message := "Failed to load grammar: " ++ why }
    | none => { name, available := true, required, message := "Grammar loaded" }

inductive Need where
  | grammar (name : String)
  /-- The language has no grammar table. -/
  | unsupported (language : String)
  deriving DecidableEq, Repr

def needsOf (language : String) : List Need :=
  match Language.ofName? language with
  | some l => (Grammar.tableOf l).grammars.map .grammar
  | none => [.unsupported language]

/-- Needs without the grammars that have been seen before. -/
def firstNeeds : (seen : List String) → List Need → List Need
  | _, [] => []
  | seen, .unsupported language :: rest => .unsupported language :: firstNeeds seen rest
  | seen, .grammar name :: rest =>
    if seen.contains name then firstNeeds seen rest
    else .grammar name :: firstNeeds (name :: seen) rest

def checkNeed (host : Host) : Need → ToolCheck
  | .grammar name => checkGrammar host name true
  | .unsupported language => {
      name := grammarName language
      available := false
      message := "Unsupported language: " ++ language }

/-- The languages that are checked: those asked for or, if none are, all. -/
def languagesOr (languages : List String) : List String :=
  if languages.isEmpty then Language.all.map (·.name) else languages

def ofLanguages (host : Host) (languages : List String) : Preflight :=
  let runtime := checkRuntime host true
  if !runtime.available then ⟨[runtime]⟩
  else ⟨runtime :: (firstNeeds [] ((languagesOr languages).flatMap needsOf)).map (checkNeed host)⟩

end Preflight
end CodeReview
