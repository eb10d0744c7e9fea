import CodeReview.Command.Basic
import CodeReview.Files.Listing
import CodeReview.Preflight
import CodeReview.Value.Json
/-!
# The other commands

Each prints what it has found out, as lines or as JSON: the result of one file, the rules that are in force,
or the checks of a preflight. The last one writes a new settings file.
-/
namespace CodeReview.Command

def checkMark : String := "✅"

def crossMark : String := "❌"

def pauseMark : String := "⏸️ "

def branch : String := "     └─ "

/-! ## One file -/

def findingLines (f : Finding) : List String :=
  ("  " ++ toString f.location.line ++ ":" ++ toString f.location.column ++ "  " ++ f.severity.label ++
    " " ++ f.title ++ " [" ++ f.rule.id ++ "]") ::
    match f.suggestion with
    | none => []
    | some s => [branch ++ s.fix]

def fileLines (path : String) (r : FileResult) : List String :=
  let m := r.metrics
  (path ++ " (" ++ (Value.text? r.language).display ++ "): " ++ toString m.lines ++ " lines, complexity " ++
    toString m.complexity ++ ", " ++ toString m.functions ++ " functions, " ++ toString m.classes ++
    " classes") ::
    if r.findings.isEmpty then [checkMark ++ " No issues found"] else r.findings.flatMap findingLines

def showFile (m : Machine) (s : Settings) (path : Path) (asJson : Bool) : Action ExitCode := do
  Action.demandFile m path
  let shown := path.toString
  if (Language.ofPath? shown).isNone then
    Action.fail ("Unsupported file type: " ++ (if path.suffix == "" then path.name else path.suffix))
  match (← get).files.read m.here path with
  | .error e => Action.fail ("Cannot read " ++ shown ++ ": " ++ e.message shown)
  | .ok bytes =>
    match Files.load "utf-8" bytes with
    | .error why => Action.fail ("Cannot read " ++ shown ++ ": " ++ why.message)
    | .ok text =>
      let analyzer := { s.analyzer m.host with clock := m.timer, elapsed := m.elapsed }
      match analyzer.analyze {} shown text none with
      | .error why => throw (.fault (.analysis why))
      | .ok analyzed =>
        Action.tellAll analyzed.log
        if asJson then Action.printLine analyzed.result.toValue.pretty
        else (fileLines shown analyzed.result).forM Action.printLine
        return .success

/-! ## Rules -/

def ruleLine (r : Rule) : String :=
  "  " ++ (if r.enabled then checkMark else pauseMark) ++ " " ++ Text.padRight 28 r.id ++ " " ++
    Text.padRight 12 r.category.name ++ " " ++ r.analyzer ++
    match r.threshold with
    | none => ""
    | some n => " (threshold " ++ toString n ++ ")"

def showRules (s : Settings) (asJson : Bool) : Action ExitCode := do
  if asJson then Action.printLine s.rules.toValue.pretty
  else
    Action.printLine "\n📋 Rules\n"
    s.rules.rules.forM fun r => Action.printLine (ruleLine r)
    Action.printLine ""
  return .success

/-! ## Preflight -/

def checkLines (c : ToolCheck) : List String :=
  let version :=
    match c.version.filter (· != "") with
    | none => ""
    | some v => " (" ++ v ++ ")"
  let need := if c.required then " [required]" else " [optional]"
  let head := "  " ++ (if c.available then checkMark else crossMark) ++ " " ++ c.name ++ version ++ need
  match c.available, c.path.filter (· != "") with
  | true, some path => [head, branch ++ path]
  | true, none => [head]
  | false, _ => [head, branch ++ c.message]

def verdictLines (p : Preflight) : List String :=
  if p.errors.isEmpty then [checkMark ++ " All preflight checks passed"]
  else (crossMark ++ " Preflight check FAILED") :: p.errors.map ("   • " ++ ·)

def showChecks (m : Machine) (asJson : Bool) : Action ExitCode := do
  let p := Preflight.ofLanguages m.host []
  if asJson then Action.printLine p.toValue.pretty
  else
    Action.printLine "\n🔍 Preflight Check Results\n"
    (p.checks.flatMap checkLines).forM Action.printLine
    Action.printLine ""
    (verdictLines p).forM Action.printLine
  return if p.success then .success else .failure

/-! ## A new settings file -/

def settingsFolder : Path := ⟨"", [Settings.folderName]⟩

def settingsFile : Path := ⟨"", [Settings.folderName, Settings.fileName]⟩

/-- Writes a new settings file, in the place of another only if that is forced. -/
def makeSettings (m : Machine) (force : Bool) : Action ExitCode := do
  Action.makeFolders m settingsFolder
  let shown := settingsFile.toString
  if (← get).files.leads m.here settingsFile && !force then
    Action.tell (Log.error Log.root ("Config already exists: " ++ shown))
    Action.tell (Log.info Log.root "Use --force to overwrite")
    return .failure
  Action.writeText m settingsFile Settings.template
  Action.tell (Log.info Log.root ("Created config: " ++ shown))
  Action.printLine ("\n" ++ checkMark ++ " Vigil configuration initialized")
  Action.printLine ("   Config: " ++ shown)
  return .success

end CodeReview.Command
