import CodeReview.Number.Quantity
/-!
# Failures

What can go wrong while a file is read or analyzed, or in a collaborator the caller supplies. A failure
has a name (`kind`) and a text (`message`); the text of a collaborator's failure may be empty, and then its name
says what it was (`reason`).
-/
namespace CodeReview

inductive Failure where
  /-- A file took longer than its time budget, in seconds. -/
  | timeout (budget : Number.Quantity)
  /-- The content of a file could not be retrieved. -/
  | unreadable (path message : String)
  /-- An analyzer reported a rule that is not an enabled rule of its group. -/
  | unfitRule (analyzer rule : String)
  /-- A finding was reported by a rule without an identifier. -/
  | emptyRuleId
  /-- The bytes of a file are not text in its encoding. -/
  | undecodable (message : String)
  /-- A sink was given a result after it had been closed. -/
  | closedSink (path : String)
  /-- Progress was to be reported in steps of zero percent. -/
  | zeroStep
  /-- An integer is outside the range of doubles. -/
  | hugeInteger
  /-- A quotient of integers is outside the range of doubles. -/
  | hugeQuotient
  /-- A collaborator failed; `kind` names the failure, `message` describes it and may be empty. -/
  | raised (kind message : String)

namespace Failure

def message : Failure → String
  | timeout budget => "Analysis exceeded time budget of " ++ Number.sixDigits budget.toFloat ++ "s"
  | unreadable path message => "Cannot read " ++ path ++ ": " ++ message
  | unfitRule analyzer rule =>
    "Analyzer failed: " ++ analyzer ++ " - Rule " ++ rule ++ " is not an enabled " ++ analyzer ++ " rule"
  | emptyRuleId => "Rule reference requires a non-empty id"
  | undecodable message => message
  | closedSink path => "Sink for " ++ path ++ " is closed"
  | zeroStep => "integer division or modulo by zero"
  | hugeInteger => "int too large to convert to float"
  | hugeQuotient => "integer division result too large for a float"
  | raised _ message => message

def kind : Failure → String
  | timeout _ => "AnalysisTimeout"
  | unreadable _ _ => "ProviderFailure"
  | unfitRule _ _ => "AnalyzerFailure"
  | undecodable _ => "UnicodeDecodeError"
  | zeroStep => "ZeroDivisionError"
  | hugeInteger | hugeQuotient => "OverflowError"
  | raised kind _ => kind
  | emptyRuleId | closedSink _ => "ValueError"

/-- The name of a failure with the part of the program that it belongs to. -/
def fullKind : Failure → String
  | timeout budget => "vigil.analyzers.walker." ++ (timeout budget).kind
  | unreadable path message => "vigil.sources." ++ (unreadable path message).kind
  | f => f.kind

/-- A failure as a log shows it: its full name, and its description if it has one. -/
def report (f : Failure) : String := if f.message == "" then f.fullKind else f.fullKind ++ ": " ++ f.message

/-- The description of a failure or, if it has none, its kind. -/
def reason : Failure → String
  | raised kind "" => kind
  | f => f.message

def isTimeout : Failure → Bool
  | timeout _ => true
  | _ => false

end Failure
end CodeReview
