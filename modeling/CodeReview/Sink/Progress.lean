import CodeReview.Number.Rounding
import CodeReview.Run.Repository
/-!
# Progress in the log

Reports progress as messages, one for each step of a percentage: while files are analyzed, a report is
passed over if it falls into the same step as the last one that was logged. Reports of another phase are
always logged.
-/
namespace CodeReview.Sink

def speaker : String := Log.part "sinks"

/-- A percentage step, and the step of the last report that was logged. -/
structure Progress where
  step : Int := 10
  last : Int := -1
  deriving DecidableEq, Repr, Inhabited

/-- A rational without its fraction. -/
def wholeOf (q : Rat) : Int := q.num.tdiv q.den

/-- How much of a total is processed, in whole percent; nothing to do counts as all done. The quotient has to
be in the range of doubles. -/
def percent (processed total : Int) : Except Failure Int :=
  if total == 0 then .ok 100
  else if !Number.fitsFloat (processed * 100) total then .error .hugeQuotient
  else .ok (wholeOf (Number.nearest53 (processed * 100 / total)))

def progressMessage (processed total percent : Int) (phase : String) : String :=
  "Progress: " ++ toString processed ++ "/" ++ toString total ++ " files (" ++ toString percent ++ "%) [" ++
    phase ++ "]"

namespace Progress

def report (p : Progress) (processed total : Int) (phase : String) : Run.Reply Progress :=
  match percent processed total with
  | .error why => { failure := some why, state := p }
  | .ok percent =>
    if p.step == 0 then { failure := some .zeroStep, state := p }
    else
      let bucket := percent.fdiv p.step
      if phase != Run.Work.analyzing || bucket != p.last then
        { state := { p with last := bucket }
          log := [Log.info speaker (progressMessage processed total percent phase)] }
      else { state := p }

end Progress
end CodeReview.Sink
