/-!
# Report formats

The forms in which the result of a run is reported.
-/
namespace CodeReview

inductive ReportFormat where
  | text
  | json
  | markdown
  deriving DecidableEq, Repr, Inhabited

namespace ReportFormat

def all : List ReportFormat := [.text, .json, .markdown]

def name : ReportFormat → String
  | .text => "text"
  | .json => "json"
  | .markdown => "markdown"

def names : List String := all.map name

def ofName? (s : String) : Option ReportFormat := all.find? (·.name == s)

end ReportFormat
end CodeReview
