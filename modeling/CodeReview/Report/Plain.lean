import CodeReview.Report.Digest
/-!
# Reports as plain text

A head of four lines, a line on complexity if any file has some, then one section for each path that has
findings and one for the errors. Each finding has one line.
-/
namespace CodeReview.Report.Plain

def head (title : String) (r : RepositoryResult) : List String := [
  title ++ ": " ++ r.state.name,
  "Files: " ++ toString r.analyzedFiles ++ "/" ++ toString r.totalFiles ++ " analyzed, " ++
    toString r.totalLines ++ " lines",
  "Issues: " ++ toString r.totalIssues ++ " (critical " ++ toString r.tally.critical ++ ", high " ++
    toString r.tally.high ++ ", medium " ++ toString r.tally.medium ++ ", low " ++
    toString r.tally.low ++ ")",
  "Score: " ++ scoreText r.score]

/-- The line on complexity, if any file has some. -/
def complexity (c : ComplexitySummary) : List String :=
  if (hotSpots c).isEmpty then []
  else ["Complexity: average " ++ Number.floatText c.average ++ ", max " ++ toString c.max]

def findingLine (f : Finding) : String :=
  "  " ++ toString f.location.line ++ ":" ++ toString f.location.column ++ "  " ++ f.severity.label ++
    " " ++ f.title ++ " [" ++ f.rule.id ++ "]"

def section_ (group : String × List Finding) : List String :=
  "" :: group.1 :: group.2.map findingLine

def errorLine (e : RunError) : String :=
  "  " ++ e.component ++
    (match e.filePath.filter (· != "") with
      | none => ""
      | some path => " " ++ path) ++ ": " ++ e.message

def errors (es : List RunError) : List String :=
  if es.isEmpty then [] else "" :: "Errors:" :: es.map errorLine

def lines (title : String) (r : RepositoryResult) : List String :=
  head title r ++ complexity r.complexity ++ (byPath r.findings).flatMap section_ ++ errors r.errors

end CodeReview.Report.Plain
