import CodeReview.Analyzer.Basic
import CodeReview.Syntax.Metrics
/-!
# Complexity

Reports a file whose cyclomatic complexity is above the rule's threshold. Complexity is that of the whole
file, so the finding stands at its first line and column.
-/
namespace CodeReview.Analyzer.Complexity

/-- The group and the only rule of the pass. -/
def rule : String := "complexity"

def defaultThreshold : Int := 10

def advice : Suggestion where
  fix := "Consider breaking down complex functions into smaller, more manageable pieces."
  confidence := some 80

def severity (complexity : Nat) : Severity := if complexity > highComplexity then .high else .medium

def draft (complexity : Nat) (threshold : Int) : Draft where
  rule
  severity := severity complexity
  title := "High Cyclomatic Complexity (" ++ toString complexity ++ ")"
  description := "This file has a cyclomatic complexity of " ++ toString complexity ++
    ", which exceeds the recommended threshold of " ++ toString threshold ++ "."
  line := 1
  column := 1
  suggestion := some advice

def drafts (rules : RuleSet) (complexity : Nat) : List Draft :=
  let threshold := rules.threshold rule defaultThreshold
  if complexity ≤ threshold then [] else [draft complexity threshold]

end Complexity

def complexity : Analyzer where
  name := Complexity.rule
  analyze c root deadline :=
    if !c.rules.isEnabled Complexity.rule then (.ok [], deadline)
    else
      let (outcome, deadline) := Syntax.cyclomaticComplexity root deadline
      (outcome.bind fun n => c.findings Complexity.rule (Complexity.drafts c.rules n), deadline)

end CodeReview.Analyzer
