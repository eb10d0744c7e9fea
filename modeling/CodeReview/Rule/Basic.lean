import CodeReview.Finding
/-!
# Rules and rule sets

A rule decides whether one check runs, with which limit, and what its findings refer to. A rule set is
an ordered table of rules by identifier. It is a value: changing rules means building another set.
-/
namespace CodeReview

structure Rule where
  id : String
  name : String
  category : Category
  analyzer : String
  enabled : Bool := true
  threshold : Option Int := none
  documentation : Option String := none
  weaknesses : List String := []
  deriving DecidableEq, Repr, Inhabited

/-- The rule of the finding that stands for a file that could not be analyzed. -/
def parseErrorId : String := "parse-error"

/-- The analyzer group of rules that no analyzer checks. -/
def engineGroup : String := "engine"

/-- Above this complexity a file is reported as high instead of medium. -/
def highComplexity : Int := 20

def Rule.ref (r : Rule) : Except FindingError RuleRef := RuleRef.make r.id r.name r.category r.documentation

def Rule.toValue (r : Rule) : Value := .map [
  ("id", .text r.id),
  ("name", .text r.name),
  ("category", .text r.category.name),
  ("analyzer", .text r.analyzer),
  ("enabled", .bool r.enabled),
  ("threshold", .int? r.threshold),
  ("documentation", .text? r.documentation),
  ("cwe", .texts r.weaknesses)]

def parseErrorRule : Rule :=
  ⟨parseErrorId, "Parse Error", .bug, engineGroup, true, none, none, []⟩

def builtinRules : List Rule := [
  ⟨"complexity", "Cyclomatic Complexity", .complexity, "complexity", true, some 10, none, []⟩,
  ⟨"no-eval", "No eval()", .security, "security", true, none,
    some "https://eslint.org/docs/rules/no-eval", ["CWE-95"]⟩,
  ⟨"no-innerHTML", "No innerHTML", .security, "security", true, none, none, ["CWE-79"]⟩,
  ⟨"max-nested-loops", "Maximum nested loops", .performance, "performance", true, some 2, none, []⟩,
  ⟨"max-array-size", "Maximum array size", .performance, "performance", true, some 1000, none, []⟩,
  ⟨"no-unreachable", "No unreachable code", .bug, "bugs", true, none, none, []⟩,
  ⟨"no-assignment-in-condition", "No assignment in condition", .bug, "bugs", true, none, none, []⟩,
  parseErrorRule]

/-- Rules in order, each under its identifier. -/
structure RuleSet where
  rules : List Rule
  deriving DecidableEq, Repr, Inhabited

namespace RuleSet

def builtin : RuleSet := ⟨builtinRules⟩

def ids (s : RuleSet) : List String := s.rules.map (·.id)

/-- The first identifier that stands twice, found where it stands for the second time. -/
def duplicate? : (seen : List String) → List Rule → Option String
  | _, [] => none
  | seen, r :: rest => if seen.contains r.id then some r.id else duplicate? (r.id :: seen) rest

structure Duplicate where
  id : String
  deriving DecidableEq, Repr

def Duplicate.message (d : Duplicate) : String := "Duplicate rule id: " ++ d.id

def ofRules (rs : List Rule) : Except Duplicate RuleSet :=
  match duplicate? [] rs with
  | some id => .error ⟨id⟩
  | none => .ok ⟨rs⟩

def find? (s : RuleSet) (id : String) : Option Rule := s.rules.find? (·.id == id)

def has (s : RuleSet) (id : String) : Bool := s.rules.any (·.id == id)

def isEnabled (s : RuleSet) (id : String) : Bool :=
  match s.find? id with
  | some r => r.enabled
  | none => false

def threshold (s : RuleSet) (id : String) (default : Int) : Int :=
  ((s.find? id).bind (·.threshold)).getD default

def ofAnalyzer (s : RuleSet) (group : String) : List Rule := s.rules.filter (·.analyzer == group)

/-- The categories of the enabled rules, sorted by name, each once. -/
def enabledCategories (s : RuleSet) : List String :=
  let names := (s.rules.filter (·.enabled)).map (·.category.name)
  (names.eraseDups).mergeSort fun a b => a ≤ b

def summary (s : RuleSet) : String :=
  "RuleSet(" ++ toString s.rules.length ++ " rules, " ++
    toString (s.rules.countP (·.enabled)) ++ " enabled)"

def toValue (s : RuleSet) : Value := .map (s.rules.map fun r => (r.id, r.toValue))

end RuleSet
end CodeReview
