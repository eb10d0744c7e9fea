import CodeReview.Report.Digest
/-!
# Reports in Markdown

Tables of the counts, of the findings by severity and of the most complex files, then for each path that
has findings a table with one row for each of them and a bullet for each that has a suggestion, and last
the errors.
-/
namespace CodeReview.Report.Markdown

def row (cells : List String) : String := "| " ++ " | ".intercalate cells ++ " |"

def code (s : String) : String := "\x60" ++ s ++ "\x60"

def languageText (languages : List String) : String :=
  if languages.isEmpty then "none" else ", ".intercalate languages

def head (title : String) (r : RepositoryResult) : List String := [
  "# Code Analysis: " ++ title,
  "",
  "| | |",
  "|---|---|",
  row ["Status", r.state.name],
  row ["Started", timeText (some r.startedAt)],
  row ["Finished", timeText r.finishedAt],
  row ["Files analyzed", toString r.analyzedFiles ++ " / " ++ toString r.totalFiles],
  row ["Lines", toString r.totalLines],
  row ["Languages", languageText r.languages],
  row ["Quality score", scoreText r.score],
  ""]

def severities (r : RepositoryResult) : List String :=
  ["## Issues by Severity", "", "| Severity | Count |", "|---|---|"] ++
    (Severity.sort true Severity.all).map (fun s => row [s.name, toString (r.tally.count s)]) ++
    [row ["**total**", "**" ++ toString r.totalIssues ++ "**"], ""]

/-- The table of the most complex files, if any file has some complexity. -/
def complexity (c : ComplexitySummary) : List String :=
  if (hotSpots c).isEmpty then []
  else
    ["## Complexity", "",
      "Average " ++ Number.floatText c.average ++ ", maximum " ++ toString c.max ++ ".",
      "", "| File | Complexity |", "|---|---|"] ++
      (hotSpots c).map (fun e => row [code e.1, toString e.2]) ++ [""]

def findingRow (f : Finding) : String :=
  row [toString f.location.line, f.severity.name, code f.rule.id, f.title]

def suggestionLine (f : Finding) : Option String :=
  f.suggestion.map fun s => "- Line " ++ toString f.location.line ++ ": " ++ s.fix

def section_ (group : String × List Finding) : List String :=
  ["### " ++ code group.1, "", "| Line | Severity | Rule | Issue |", "|---|---|---|---|"] ++
    group.2.map findingRow ++ "" :: group.2.filterMap suggestionLine

def findings (groups : List (String × List Finding)) : List String :=
  ["## Findings", ""] ++ (if groups.isEmpty then ["No issues found."] else groups.flatMap section_)

def errorLine (e : RunError) : String :=
  "- **" ++ e.component ++ "**" ++
    (match e.filePath.filter (· != "") with
      | none => ""
      | some path => " " ++ code path) ++ ": " ++ e.message

def errors (es : List RunError) : List String :=
  if es.isEmpty then [] else "## Errors" :: "" :: es.map errorLine

def lines (title : String) (r : RepositoryResult) : List String :=
  head title r ++ severities r ++ complexity r.complexity ++ findings (byPath r.findings) ++
    errors r.errors

end CodeReview.Report.Markdown
