import CodeReview.Rule.Basic
import CodeReview.Syntax.Walk
/-!
# Analyzers

An analyzer goes over the canonical tree of a file and yields findings, or fails and yields none. Its name
is the group of the rules it checks. A finding is made from a draft by the rule set in effect
(`Context.finding`): the draft says which rule, where and what, and everything the finding says about the
rule comes from the set, so that the two cannot disagree.
-/
namespace CodeReview

open Syntax (Deadline)

structure Context where
  path : String
  language : String
  rules : RuleSet

/-- A finding before the rule set has been asked. -/
structure Draft where
  rule : String
  severity : Severity
  title : String
  description : String
  line : Int
  column : Int
  suggestion : Option Suggestion := none
  tags : List String := []

def Draft.at (l : Syntax.Label) (rule : String) (severity : Severity) (title description : String)
    (tags : List String) : Draft :=
  { rule, severity, title, description, line := l.line, column := l.column, tags }

def Draft.metadata (d : Draft) (r : Rule) : Entries Value :=
  (if r.weaknesses.isEmpty then [] else [("cwe", Value.texts r.weaknesses)]) ++
    (if d.tags.isEmpty then [] else [("tags", Value.texts d.tags)])

def RuleSet.enabledIn? (s : RuleSet) (group id : String) : Option Rule :=
  (s.find? id).filter fun r => r.enabled && r.analyzer == group

/-- The finding of a draft by an analyzer group, whose rule must be an enabled one of the group. -/
def Context.finding (c : Context) (group : String) (d : Draft) : Except Failure Finding :=
  match c.rules.enabledIn? group d.rule with
  | none => .error (.unfitRule group d.rule)
  | some r =>
    match r.ref with
    | .error _ => .error .emptyRuleId
    | .ok ref => .ok {
        id := r.id ++ ":" ++ c.path ++ ":" ++ toString d.line
        category := r.category
        severity := d.severity
        title := d.title
        description := d.description
        location := { path := c.path, line := d.line, column := d.column }
        rule := ref
        suggestion := d.suggestion
        metadata := d.metadata r }

/-- The findings of drafts, in order; the first that does not make one decides the failure. -/
def Context.findings (c : Context) (group : String) (ds : List Draft) : Except Failure (List Finding) :=
  ds.mapM (c.finding group)

structure Analyzer where
  /-- The group of rules that the pass checks. -/
  name : String
  /-- The languages that the pass is for; `none` for all. -/
  languages : Option (List String) := none
  /-- The findings of a tree within a time budget, which is given back as it was left. -/
  analyze : Context → Syntax.Node → Option Deadline →
    Except Failure (List Finding) × Option Deadline

namespace Analyzer

def speaks (a : Analyzer) (language : String) : Bool :=
  match a.languages with
  | none => true
  | some ls => ls.contains language

/-- Whether the pass should run on a file: it is for the file's language, and one of its rules is
enabled. -/
def applies (a : Analyzer) (c : Context) : Bool :=
  a.speaks c.language && (c.rules.ofAnalyzer a.name).any (·.enabled)

/-- The languages of a pass in a report: sorted, or `all` where the pass is not limited to some. -/
def languagesValue (a : Analyzer) : Value :=
  match a.languages with
  | none | some [] => .text "all"
  | some ls => .texts (ls.eraseDups.mergeSort fun a b => a ≤ b)

def toValue (a : Analyzer) : Value :=
  .map [("name", .text a.name), ("languages", a.languagesValue)]

/-- A pass that makes drafts at each node it visits, parents before children. -/
def ofDrafts (name : String) (languages : Option (List String))
    (drafts : RuleSet → Syntax.Node → List Draft) : Analyzer where
  name
  languages
  analyze c root deadline :=
    (Syntax.Walk.collect (fun v => c.findings name (drafts c.rules v.node)) root deadline).result

end Analyzer
end CodeReview
