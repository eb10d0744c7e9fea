import CodeReview.Analyzer.Basic
import CodeReview.Language
/-!
# Security

Reports two dangers of JavaScript and TypeScript: calling `eval` by its name, and naming the member
`innerHTML`, whether it is read or written.
-/
namespace CodeReview.Analyzer.Security

def group : String := "security"

def evalRule : String := "no-eval"

def innerRule : String := "no-innerHTML"

def callsEval (l : Syntax.Label) : Bool := l.kind == .call && l.name == some "eval"

def namesInner (l : Syntax.Label) : Bool := l.kind == .member && l.name == some "innerHTML"

def evalCall (l : Syntax.Label) : Draft :=
  .at l evalRule .critical "Dangerous eval() usage"
    "Using eval() can lead to code injection vulnerabilities." ["injection"]

def innerMember (l : Syntax.Label) : Draft :=
  .at l innerRule .high "Potential XSS vulnerability"
    "Direct innerHTML manipulation can lead to XSS attacks." ["xss"]

def drafts (rules : RuleSet) (n : Syntax.Node) : List Draft :=
  if rules.isEnabled evalRule && callsEval n.label then [evalCall n.label]
  else if rules.isEnabled innerRule && namesInner n.label then [innerMember n.label]
  else []

end Security

def security : Analyzer :=
  .ofDrafts Security.group (some [Language.javascript.name, Language.typescript.name]) Security.drafts

end CodeReview.Analyzer
