import CodeReview.Finding
import CodeReview.Number.Quantity
import CodeReview.Syntax.Metrics
/-!
# File results

What has been made of one file, and the errors that did not keep the run from going on.
-/
namespace CodeReview

/-- An error after which the run went on: what failed, why, and on which file if on one. -/
structure RunError where
  component : String
  message : String
  filePath : Option String := none
  recoverable : Bool := true
  deriving DecidableEq, Repr, Inhabited

def RunError.toValue (e : RunError) : Value := .map [
  ("component", .text e.component),
  ("message", .text e.message),
  ("file_path", .text? e.filePath),
  ("recoverable", .bool e.recoverable)]

structure FileResult where
  path : String
  /-- The language of the file; `none` if it is not one that is analyzed. -/
  language : Option String
  metrics : Syntax.Metrics := {}
  findings : List Finding := []
  errors : List RunError := []
  /-- Whether the file has a syntax tree. -/
  parsed : Bool := false
  /-- How long the file took, in seconds. -/
  duration : Number.Quantity := .decimal 0.0

/-- A duration rounded to microseconds. -/
def durationValue : Number.Quantity → Value
  | .whole n => .int n
  | .decimal x => .float (Number.roundPlaces 6 x)

def FileResult.toValue (r : FileResult) : Value := .map [
  ("path", .text r.path),
  ("language", .text? r.language),
  ("parsed", .bool r.parsed),
  ("metrics", r.metrics.toValue),
  ("findings", .list (r.findings.map (·.toValue))),
  ("issues_count", .nat r.findings.length),
  ("errors", .list (r.errors.map (·.toValue))),
  ("duration", durationValue r.duration)]

end CodeReview
