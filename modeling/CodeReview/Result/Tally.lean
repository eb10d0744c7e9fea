import CodeReview.Finding
/-!
# Tallies

How many findings there are of each severity.
-/
namespace CodeReview

structure Tally where
  critical : Int := 0
  high : Int := 0
  medium : Int := 0
  low : Int := 0
  deriving DecidableEq, Repr, Inhabited

namespace Tally

def count (t : Tally) : Severity → Int
  | .critical => t.critical
  | .high => t.high
  | .medium => t.medium
  | .low => t.low

def add (t : Tally) : Severity → Tally
  | .critical => { t with critical := t.critical + 1 }
  | .high => { t with high := t.high + 1 }
  | .medium => { t with medium := t.medium + 1 }
  | .low => { t with low := t.low + 1 }

def addAll (t : Tally) (fs : List Finding) : Tally := fs.foldl (fun t f => t.add f.severity) t

def sumOver (f : Severity → Int) : Int := f .critical + f .high + f .medium + f .low

def total (t : Tally) : Int := sumOver t.count

/-- The number of findings of a severity or a worse one. -/
def atOrAbove (t : Tally) (s : Severity) : Int := sumOver fun r => if s ≤ r then t.count r else 0

def toValue (t : Tally) : Value := .map [
  ("critical", .int t.critical),
  ("high", .int t.high),
  ("medium", .int t.medium),
  ("low", .int t.low)]

@[simp] theorem count_add (t : Tally) (s r : Severity) :
    (t.add s).count r = t.count r + if s = r then 1 else 0 := by
  cases s <;> cases r <;> simp [add, count]

end Tally
end CodeReview
