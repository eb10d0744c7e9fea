import CodeReview.Calendar.Iso
import CodeReview.Result.Repository
/-!
# What reports show

Findings are shown in groups, one for each path they lie in: the paths ascend, each stands once, and the
findings of a path keep the order in which they came. The most complex files come first, and of equally
complex ones the first by path; only the first few are shown.
-/
namespace CodeReview.Report

def pathOf (f : Finding) : String := f.location.path

/-- The paths that findings lie in, ascending, each once. -/
def paths (fs : List Finding) : List String := (fs.map pathOf).eraseDups.mergeSort fun a b => a ≤ b

def onPath (fs : List Finding) (path : String) : List Finding := fs.filter (pathOf · == path)

def byPath (fs : List Finding) : List (String × List Finding) :=
  (paths fs).map fun path => (path, onPath fs path)

/-! ## Hot spots -/

def hotSpotLimit : Nat := 10

/-- Whether a file's path and complexity may stand before another's. -/
def isHotter (a b : String × Int) : Bool := b.2 < a.2 || (a.2 == b.2 && a.1 ≤ b.1)

def ranked (files : List (String × Int)) : List (String × Int) := files.mergeSort isHotter

def hotSpots (c : ComplexitySummary) : List (String × Int) := (ranked c.files).take hotSpotLimit

/-! ## Parts of lines -/

def unknown : String := "N/A"

def scoreText : Option Int → String
  | none => unknown
  | some n => toString n

def timeText : Option Calendar.Instant → String
  | none => unknown
  | some t => (Calendar.Moment.ofInstant t).label

/-- The label of a written date and time; a text that is none is shown as it is. -/
def writtenTimeText (s : String) : String :=
  match Calendar.readMoment s with
  | some m => m.label
  | none => s

end CodeReview.Report
