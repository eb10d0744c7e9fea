import CodeReview.Files.Basic
import CodeReview.Settings.Basic
import CodeReview.Value.Yaml.Reader
/-!
# Settings files

Settings are kept in a YAML file: the one that is named, or else the first of two that stands in the
folder of the run. An empty document leaves all defaults.
-/
namespace CodeReview.Settings

def template : String :=
"# Vigil Configuration

# Analysis settings
analysis:
  exclude_paths:         # directory names, path prefixes, or glob patterns
    - node_modules
    - .git
    - dist
    - build
  include_paths: []      # when set, only matching paths are analyzed
  file_timeout: 30       # seconds per file before it is reported as a parse error
  tolerant_parsing: false  # analyze files with recoverable syntax errors
  min_severity: low      # low, medium, high, critical

# Rule overrides (see `vigil rules`)
rules: \x7b\x7d
#   complexity:
#     threshold: 15
#   no-innerHTML: false
#   performance:
#     enabled: false

# Output settings
output:
  format: text           # text, json, markdown
  # path: \"vigil-report.md\"

# CI/CD settings
ci:
  fail_on: high          # exit code 2 when findings at or above this severity exist
"

def folderName : String := ".vigil"

def fileName : String := "config.yaml"

/-- The paths at which settings files are looked for, the first going first. -/
def candidates : List Path := [⟨"", [folderName, fileName]⟩, ⟨"", ["vigil.yaml"]⟩]

/-- The place of the first settings file in a folder, whatever stands there. -/
def discover (fs : Files) (folder : Place) : Option Place :=
  (candidates.map (Files.placeOf folder)).find? fun p => fs.leads [] (Files.pathOf p)

inductive LoadError where
  | missing (path : String)
  | unreadable (path : String) (e : FileError)
  | undecodable (message : String)
  | malformed (path : String) (why : Value.Yaml.FormError)
  /-- A scalar stands for no value. -/
  | scalar (why : Value.Yaml.NoValue)
  | notATable (path : String)
  | invalid (e : Invalid)

def LoadError.message : LoadError → String
  | .missing path => "Config file not found: " ++ path
  | .unreadable path e => e.message path
  | .undecodable message => message
  | .malformed path why => "Invalid YAML in " ++ path ++ ": " ++ why.message path
  | .scalar why => why.message
  | .notATable path => "Config file " ++ path ++ " must contain a mapping"
  | .invalid e => e.message

/-- Settings, and the path of the file they were loaded from, if there is one. -/
structure Loaded where
  settings : Settings
  path : Option String

/-- The report of bytes that are no UTF-8. The file is read to its end before its last bytes are judged,
so a character cut short there is placed from where it begins. -/
def decodeMessage (e : Text.Utf8.Invalid) : String :=
  match e.why with
  | .truncated => ({ e with start := 0 } : Text.Utf8.Invalid).message
  | _ => e.message

def ofDocument (env : Environment) (path text : String) : Except LoadError Settings :=
  match Value.Yaml.parse text with
  | .error (.form why) => .error (.malformed path why)
  | .error (.value why) => .error (.scalar why)
  | .ok v =>
    if v.isEmpty then (ofValue env (.map [])).mapError .invalid
    else if v.isTable then (ofValue env v).mapError .invalid
    else .error (.notATable path)

def ofFile (fs : Files) (here : Place) (env : Environment) (path : Path) : Except LoadError Loaded := do
  let shown := path.toString
  let bytes ← (fs.read here path).mapError (.unreadable shown)
  let text ← (Text.Utf8.decode bytes).mapError fun e => .undecodable (decodeMessage e)
  let settings ← ofDocument env shown (Text.universal text)
  return ⟨settings, some shown⟩

/-- The settings of a run in a folder: of the file that is named, of one that is found there, or the
defaults. -/
def load (fs : Files) (here : Place) (env : Environment) (named : Option Path) (look : Bool) :
    Except LoadError Loaded :=
  match named with
  | some path =>
    if fs.leads here path then ofFile fs here env path else .error (.missing path.toString)
  | none =>
    match if look then discover fs here else none with
    | some p => ofFile fs here env (Files.pathOf p)
    | none => .ok ⟨{}, none⟩

end CodeReview.Settings
