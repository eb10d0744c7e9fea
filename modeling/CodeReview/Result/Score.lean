import CodeReview.Number.Rounding
import CodeReview.Result.Tally
/-!
# The quality score

A score of 100 means no findings. Otherwise the findings are weighted by their severity and compared with
one finding for every ten lines, which scores 0; the result is rounded to an integer, a half going to the
even neighbour. Each operation of the computation is followed by a rounding, which is a parameter:
`score` rounds to 53 significant bits, and no rounding at all gives the exact score.
-/
namespace CodeReview

def Severity.weight : Severity → Int
  | .critical => 10
  | .high => 5
  | .medium => 2
  | .low => 1

namespace Tally

def weighted (t : Tally) : Int := sumOver fun s => s.weight * t.count s

/-- The number of lines per finding that scores 0, as a factor. -/
def findingsPerLine : Rat := 1 / 10

def atLeast (bound q : Rat) : Rat := if q ≤ bound then bound else q

def atMost (bound q : Rat) : Rat := if bound ≤ q then bound else q

def rawScore (round : Rat → Rat) (t : Tally) (lines : Int) : Rat :=
  let possible := round (round lines * round findingsPerLine)
  let share := round (round t.weighted / atLeast 1 possible)
  round (100 - round (share * 100))

/-- The score of findings in a number of lines, with a rounding after each operation. -/
def scoreWith (round : Rat → Rat) (t : Tally) (lines : Int) : Int :=
  if t.total == 0 then 100 else Number.roundEven (atLeast 0 (atMost 100 (t.rawScore round lines)))

def score (t : Tally) (lines : Int) : Int := t.scoreWith Number.nearest53 lines

end Tally
end CodeReview
