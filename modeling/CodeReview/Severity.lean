import CodeReview.Text.Blank
import CodeReview.Text.Quoted
import CodeReview.Text.Lines
/-!
# Severities, categories and review states

Three closed vocabularies, each with its names. Severities are ordered by `rank`, and `Severity.read`
accepts a name in any case and with blanks around it, where the `ofName?` functions take the exact name.
-/
namespace CodeReview

structure UnknownName where
  vocabulary : String
  name : String
  deriving DecidableEq, Repr

def UnknownName.message (e : UnknownName) : String :=
  Text.quoted e.name ++ " is not a valid " ++ e.vocabulary

/-! ## Severity -/

inductive Severity where
  | low
  | medium
  | high
  | critical
  deriving DecidableEq, Repr, Inhabited

namespace Severity

def all : List Severity := [.low, .medium, .high, .critical]

def name : Severity → String
  | .low => "low"
  | .medium => "medium"
  | .high => "high"
  | .critical => "critical"

/-- The place of a severity in the order, from 1 for the mildest. -/
def rank : Severity → Nat
  | .low => 1
  | .medium => 2
  | .high => 3
  | .critical => 4

instance : LE Severity := ⟨fun a b => a.rank ≤ b.rank⟩
instance : LT Severity := ⟨fun a b => a.rank < b.rank⟩
instance (a b : Severity) : Decidable (a ≤ b) := inferInstanceAs (Decidable (a.rank ≤ b.rank))
instance (a b : Severity) : Decidable (a < b) := inferInstanceAs (Decidable (a.rank < b.rank))

def ofName? (s : String) : Except UnknownName Severity :=
  match all.find? (·.name == s) with
  | some v => .ok v
  | none => .error ⟨"Severity", s⟩

structure Invalid where
  text : String
  deriving DecidableEq, Repr

def Invalid.message (e : Invalid) : String :=
  "Invalid severity: " ++ e.text ++ ". Valid: " ++ Text.quotedList (all.map name)

/-- Reads a severity, whatever its case and the blanks around it. No name holds the letter k, the only
one in the names' alphabet that a letter outside ASCII becomes in lower case, so lowering ASCII letters
decides. -/
def read (s : String) : Except Invalid Severity :=
  match all.find? (·.name == (Text.strip s).toLower) with
  | some v => .ok v
  | none => .error ⟨s⟩

/-- The name in capitals, padded to the width of the widest. -/
def label (s : Severity) : String := Text.padRight 8 s.name.toUpper

def sort (descending : Bool) (ss : List Severity) : List Severity :=
  ss.mergeSort fun a b => if descending then b.rank ≤ a.rank else a.rank ≤ b.rank

inductive Comparison where
  | lt
  | le
  | gt
  | ge
  deriving DecidableEq, Repr

def Comparison.sign : Comparison → String
  | .lt => "<"
  | .le => "<="
  | .gt => ">"
  | .ge => ">="

def Comparison.holds : Comparison → Severity → Severity → Bool
  | .lt, a, b => a < b
  | .le, a, b => a ≤ b
  | .gt, a, b => b < a
  | .ge, a, b => b ≤ a

/-- The report of an ordering asked between a severity and a text, which has no answer. -/
def Comparison.textMessage (c : Comparison) : String :=
  "'" ++ c.sign ++ "' not supported between instances of 'Severity' and 'str'"

@[simp] theorem le_iff (a b : Severity) : a ≤ b ↔ a.rank ≤ b.rank := Iff.rfl
@[simp] theorem lt_iff (a b : Severity) : a < b ↔ a.rank < b.rank := Iff.rfl

end Severity

/-! ## Category -/

inductive Category where
  | bug
  | security
  | performance
  | style
  | complexity
  | maintainability
  | suggestion
  deriving DecidableEq, Repr, Inhabited

namespace Category

def all : List Category :=
  [.bug, .security, .performance, .style, .complexity, .maintainability, .suggestion]

def name : Category → String
  | .bug => "bug"
  | .security => "security"
  | .performance => "performance"
  | .style => "style"
  | .complexity => "complexity"
  | .maintainability => "maintainability"
  | .suggestion => "suggestion"

def ofName? (s : String) : Except UnknownName Category :=
  match all.find? (·.name == s) with
  | some v => .ok v
  | none => .error ⟨"Category", s⟩

end Category

/-! ## Review state -/

inductive ReviewState where
  | unresolved
  | fixed
  | ignored
  | falsePositive
  deriving DecidableEq, Repr, Inhabited

namespace ReviewState

def all : List ReviewState := [.unresolved, .fixed, .ignored, .falsePositive]

def name : ReviewState → String
  | .unresolved => "open"
  | .fixed => "fixed"
  | .ignored => "ignored"
  | .falsePositive => "false_positive"

def ofName? (s : String) : Except UnknownName ReviewState :=
  match all.find? (·.name == s) with
  | some v => .ok v
  | none => .error ⟨"FindingStatus", s⟩

end ReviewState
end CodeReview
