import CodeReview.Log.Record
import CodeReview.Report.Format
import CodeReview.Report.Markdown
import CodeReview.Report.Plain
import CodeReview.Text.Lines
import CodeReview.Value.Json
/-!
# Rendering reports

A result in one of the report formats, under a title. As JSON it is the result's table with the title in
front; the other two are made of lines.
-/
namespace CodeReview.Report

def speaker : String := Log.part "templates.renderer"

def titled (title : String) (r : RepositoryResult) : Value := .map (("title", .text title) :: r.toEntries)

def render (format : ReportFormat) (title : String) (r : RepositoryResult) : String :=
  match format with
  | .json => (titled title r).pretty ++ "\n"
  | .text => Text.ofLines (Plain.lines title r)
  | .markdown => Text.ofLines (Markdown.lines title r)

def renderLog (format : ReportFormat) (report : String) : List Log.Record :=
  match format with
  | .json => []
  | _ => [Log.debug speaker ("Rendered " ++ format.name ++ " report (" ++ toString report.length ++
      " characters)")]

structure UnknownFormat where
  name : String
  deriving DecidableEq, Repr

def UnknownFormat.message (e : UnknownFormat) : String :=
  "Unknown report format: " ++ e.name ++ ". Valid: " ++ Text.quotedList ReportFormat.names

/-- The report format of an exact name. -/
def formatOf (name : String) : Except UnknownFormat ReportFormat :=
  match ReportFormat.ofName? name with
  | some f => .ok f
  | none => .error ⟨name⟩

end CodeReview.Report
