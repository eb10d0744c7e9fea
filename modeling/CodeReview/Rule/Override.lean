import CodeReview.Rule.Basic
import CodeReview.Value.Literal
/-!
# Overrides

An override changes rules by a key: a rule's identifier or, if it is none, the name of an analyzer
group. Its value is a truth value, which enables or disables, or a table with `enabled` and `threshold`.
A threshold reaches only the rule that the key names, never a whole group. Overrides apply in order, and
the first that is invalid decides the error, so the last setting that targets a rule wins.
-/
namespace CodeReview

structure Changes where
  enabled : Option Bool := none
  threshold : Option Int := none
  deriving DecidableEq, Repr

inductive OverrideError where
  | reserved (key : String)
  | unknownRule (key : String) (valid : List String)
  | notASetting (key : String) (value : Value)
  | badEnabled (key : String)
  | badThreshold (key : String)
  | unknownSetting (key setting : String)

def OverrideError.message : OverrideError → String
  | .reserved key => "Rule " ++ key ++ " is emitted by the engine and cannot be overridden"
  | .unknownRule key valid => "Unknown rule: " ++ key ++ ". Valid: " ++ Text.quotedList valid
  | .notASetting key value => "Invalid override for rule " ++ key ++ ": " ++ value.literal
  | .badEnabled key => "Rule " ++ key ++ ": enabled must be true or false"
  | .badThreshold key => "Rule " ++ key ++ ": threshold must be a non-negative integer"
  | .unknownSetting key setting => "Rule " ++ key ++ ": unknown setting '" ++ setting ++ "'"

namespace Changes

/-- Reads one setting of a table on to the changes read before it. -/
def readSetting (key : String) (done : Changes) (setting : String × Value) :
    Except OverrideError Changes :=
  match setting with
  | ("enabled", .bool b) => .ok { done with enabled := some b }
  | ("enabled", _) => .error (.badEnabled key)
  | ("threshold", .int n) =>
    if n < 0 then .error (.badThreshold key) else .ok { done with threshold := some n }
  | ("threshold", _) => .error (.badThreshold key)
  | (other, _) => .error (.unknownSetting key other)

def read (key : String) : Value → Except OverrideError Changes
  | .bool b => .ok { enabled := some b }
  | value => if value.isTable then value.entries.foldlM (readSetting key) {} else .error (.notASetting key value)

/-- The part of the changes that reaches every rule of a group. -/
def forGroup (c : Changes) : Changes := { c with threshold := none }

def apply (c : Changes) (r : Rule) : Rule :=
  { r with enabled := c.enabled.getD r.enabled, threshold := c.threshold.or r.threshold }

end Changes

namespace RuleSet

def groups (s : RuleSet) : List String := (s.rules.map (·.analyzer)).filter (· != engineGroup)

def override (s : RuleSet) (entry : String × Value) : Except OverrideError RuleSet :=
  let (key, value) := entry
  if key == parseErrorId then .error (.reserved key)
  else if s.has key then do
    let changes ← Changes.read key value
    return ⟨s.rules.map fun r => if r.id == key then changes.apply r else r⟩
  else if s.groups.contains key then do
    let changes ← Changes.read key value
    return ⟨s.rules.map fun r => if r.analyzer == key then changes.forGroup.apply r else r⟩
  else .error (.unknownRule key (s.ids.mergeSort fun a b => a ≤ b))

/-- The rule set with overrides applied in order. -/
def withOverrides (s : RuleSet) (entries : Entries Value) : Except OverrideError RuleSet :=
  entries.foldlM override s

end RuleSet
end CodeReview
