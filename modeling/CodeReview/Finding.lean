import CodeReview.Severity
import CodeReview.Value.Basic
/-!
# Findings

A finding is one detected issue: what was found, where, by which rule, and perhaps how to mend it. A
finding names its rule through a reference whose identifier is not empty, and a suggestion's confidence
lies between 0 and 100; both hold of every value of their types.
-/
namespace CodeReview

/-- A position in a source file; lines and columns count from one. -/
structure Location where
  path : String
  line : Int
  column : Int
  endLine : Option Int := none
  endColumn : Option Int := none
  deriving DecidableEq, Repr, Inhabited

structure RuleRef where
  id : String
  name : String
  category : Category
  documentation : Option String := none
  id_ne : id ≠ ""
  deriving DecidableEq, Repr

structure Suggestion where
  fix : String
  before : Option String := none
  after : Option String := none
  confidence : Option Int := none
  confidence_le : ∀ c ∈ confidence, 0 ≤ c ∧ c ≤ 100 := by simp
  deriving Repr

inductive FindingError where
  | emptyRuleId
  | confidence (given : Int)
  | unknown (e : UnknownName)
  deriving DecidableEq, Repr

def FindingError.message : FindingError → String
  | .emptyRuleId => "Rule reference requires a non-empty id"
  | .confidence c => "Suggestion confidence must be within [0, 100] (got " ++ toString c ++ ")"
  | .unknown e => e.message

/-- A reference to a rule with the given identifier, which must not be empty. -/
def RuleRef.make (id name : String) (category : Category) (documentation : Option String) :
    Except FindingError RuleRef :=
  if h : id = "" then .error .emptyRuleId else .ok ⟨id, name, category, documentation, h⟩

/-- A suggestion whose confidence, if given, must lie between 0 and 100. -/
def Suggestion.make (fix : String) (before after : Option String) :
    (confidence : Option Int) → Except FindingError Suggestion
  | none => .ok ⟨fix, before, after, none, by simp⟩
  | some c =>
    if h : 0 ≤ c ∧ c ≤ 100 then
      .ok ⟨fix, before, after, some c, by simpa using h⟩
    else .error (.confidence c)

structure Finding where
  id : String
  category : Category
  severity : Severity
  title : String
  description : String
  location : Location
  rule : RuleRef
  suggestion : Option Suggestion := none
  state : ReviewState := .unresolved
  metadata : Entries Value := []

namespace Finding

def line (f : Finding) : Int := f.location.line

def withId (f : Finding) (id : String) : Finding := { f with id }

def withState (f : Finding) (state : ReviewState) : Finding := { f with state }

end Finding

/-! ## Serialized forms -/

def Entries.also {α : Type} (es : Entries α) (key : String) : Option α → Entries α
  | none => es
  | some v => es ++ [(key, v)]

/-- A location as a table; the end is left out where it is not known. -/
def Location.toValue (l : Location) : Value :=
  .map (Entries.also (Entries.also
    [("path", .text l.path), ("line", .int l.line), ("column", .int l.column)]
    "end_line" (l.endLine.map .int)) "end_column" (l.endColumn.map .int))

/-- A rule reference as a table; empty documentation is left out. -/
def RuleRef.toValue (r : RuleRef) : Value :=
  .map (Entries.also
    [("id", .text r.id), ("name", .text r.name), ("category", .text r.category.name)]
    "documentation" ((r.documentation.filter (· != "")).map .text))

def Suggestion.toValue (s : Suggestion) : Value :=
  .map (Entries.also (Entries.also (Entries.also [("fix", .text s.fix)]
    "before" (s.before.map .text)) "after" (s.after.map .text)) "confidence" (s.confidence.map .int))

def Finding.toValue (f : Finding) : Value :=
  let base : Entries Value := [
    ("id", .text f.id),
    ("category", .text f.category.name),
    ("severity", .text f.severity.name),
    ("title", .text f.title),
    ("description", .text f.description),
    ("location", f.location.toValue),
    ("rule", f.rule.toValue),
    ("status", .text f.state.name)]
  .map (Entries.also (base.also "suggestion" (f.suggestion.map (·.toValue)))
    "metadata" (if f.metadata.isEmpty then none else some (.map f.metadata)))

/-- Everything that tells a finding from another, apart from its identifier. -/
def Finding.contentKey (f : Finding) : Value :=
  .list [.text f.rule.id, .text f.category.name, .text f.severity.name, f.location.toValue,
    .text f.title, .text f.description]

end CodeReview
