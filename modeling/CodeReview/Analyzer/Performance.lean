import CodeReview.Analyzer.Basic
import CodeReview.Syntax.Metrics
/-!
# Performance

Reports loops nested deeper than a threshold, each loop by the depth that starts at it, and array literals
with more elements than a threshold.
-/
namespace CodeReview.Analyzer.Performance

def group : String := "performance"

def loopRule : String := "max-nested-loops"

def arrayRule : String := "max-array-size"

/-- The nesting that a rule without a threshold allows. -/
def defaultDepth : Int := 2

/-- The number of elements that a rule without a threshold allows. -/
def defaultSize : Int := 1000

def nestedLoops (rules : RuleSet) (n : Syntax.Node) : List Draft :=
  let depth := Syntax.maxLoopDepth n
  if depth > rules.threshold loopRule defaultDepth then
    [.at n.label loopRule .medium ("Deeply nested loops (" ++ toString depth ++ " levels)")
      "Deeply nested loops can cause performance issues." []]
  else []

def largeArray (rules : RuleSet) (n : Syntax.Node) : List Draft :=
  let count := n.label.elementCount.getD 0
  if count > rules.threshold arrayRule defaultSize then
    [.at n.label arrayRule .low "Large array literal"
      ("Array with " ++ toString count ++ " elements may impact performance.") []]
  else []

def drafts (rules : RuleSet) (n : Syntax.Node) : List Draft :=
  if rules.isEnabled loopRule && n.label.isLoop then nestedLoops rules n
  else if rules.isEnabled arrayRule && n.kind == .array then largeArray rules n
  else []

end Performance

def performance : Analyzer := .ofDrafts Performance.group none Performance.drafts

end CodeReview.Analyzer
