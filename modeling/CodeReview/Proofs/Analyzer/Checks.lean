import CodeReview.Proofs.Analyzer.Grounded
/-!
# The checks of analyzers

A built-in analyzer makes checks, each under a rule of its own (`Check`).  No node is subject to two checks of an
analyzer, so what an analyzer says of a node is what its checks say, one after the other, and no check keeps another one
from being made (`checks_apart`).  `checkedPasses` has the checks of each analyzer with the nodes of a tree that they are
made of; without a time budget an analyzer finds what they say (`Pass.analyze_none`).
-/
namespace CodeReview
namespace Analyzer

open Syntax (Node)

/-! ## Checks -/

/-- A check of nodes: its rule, the nodes that it looks at, and what it says of them.  Of a rule set it uses the threshold
of its rule at most. -/
structure Check where
  rule : String
  looksAt : Node → Bool
  tells : RuleSet → Node → List Draft
  tells_rule : ∀ R n, ∀ d ∈ tells R n, d.rule = rule
  tells_congr : ∀ R R', (∀ default, R.threshold rule default = R'.threshold rule default) → ∀ n, tells R n = tells R' n

namespace Check

/-- What a check says of a node, if its rule is enabled. -/
def drafts (k : Check) (R : RuleSet) (n : Node) : List Draft :=
  if R.isEnabled k.rule && k.looksAt n then k.tells R n else []

theorem drafts_rule {k : Check} {R : RuleSet} {n : Node} {d : Draft} (h : d ∈ k.drafts R n) :
    d.rule = k.rule ∧ R.isEnabled k.rule = true := by
  unfold drafts at h
  split at h
  · rename_i hcond
    exact ⟨k.tells_rule R n d h, (Bool.and_eq_true_iff.1 hcond).1⟩
  · cases h

theorem drafts_of_disabled {k : Check} {R : RuleSet} (h : R.isEnabled k.rule = false) (n : Node) : k.drafts R n = [] := by
  rw [drafts, h, Bool.false_and, if_neg Bool.false_ne_true]

theorem drafts_of_enabled {k : Check} {R : RuleSet} (h : R.isEnabled k.rule = true) (n : Node) :
    k.drafts R n = if k.looksAt n = true then k.tells R n else [] := by
  rw [drafts, h, Bool.true_and]

/-- **Without some rules a check says what it says otherwise**, unless its own rule is one of them. -/
theorem drafts_without (k : Check) (R : RuleSet) (q : Rule → Bool) (n : Node) :
    k.drafts (R.without q) n = (k.drafts R n).filter fun d => !R.names q d.rule := by
  have hrule : ∀ d ∈ k.drafts R n, R.names q d.rule = R.names q k.rule := by
    intro d hd
    rw [(drafts_rule hd).1]
  cases hq : R.names q k.rule with
  | true =>
    have hoff : (R.without q).isEnabled k.rule = false := by
      rw [RuleSet.isEnabled_without, hq, Bool.not_true, Bool.and_false]
    rw [drafts_of_disabled hoff]
    symm
    exact List.filter_eq_nil_iff.2 fun d hd => by simp [hrule d hd, hq]
  | false =>
    have hon : (R.without q).isEnabled k.rule = R.isEnabled k.rule := by
      rw [RuleSet.isEnabled_without, hq, Bool.not_false, Bool.and_true]
    have htells : k.tells (R.without q) n = k.tells R n := k.tells_congr _ _ (R.threshold_without q k.rule) n
    have hsame : k.drafts (R.without q) n = k.drafts R n := by rw [drafts, drafts, hon, htells]
    rw [hsame]
    symm
    exact List.filter_eq_self.2 fun d hd => by simp [hrule d hd, hq]

def simple (rule : String) (looksAt : Node → Bool) (tells : Node → List Draft)
    (h : ∀ n, ∀ d ∈ tells n, d.rule = rule) : Check :=
  ⟨rule, looksAt, fun _ => tells, fun _ => h, fun _ _ _ _ => rfl⟩

end Check

/-- One check and another that looks at other nodes: the second never depends on whether the first is made. -/
theorem checks_apart {R : RuleSet} {n : Node} (k₁ k₂ : Check) (h : k₁.looksAt n = true → k₂.looksAt n = false) :
    (if R.isEnabled k₁.rule && k₁.looksAt n then k₁.tells R n
      else if R.isEnabled k₂.rule && k₂.looksAt n then k₂.tells R n else []) =
      [k₁, k₂].flatMap fun k => k.drafts R n := by
  have hboth : ([k₁, k₂].flatMap fun k => k.drafts R n) = k₁.drafts R n ++ k₂.drafts R n := by
    rw [List.flatMap_cons, List.flatMap_singleton]
  rw [hboth, Check.drafts, Check.drafts]
  by_cases h₁ : (R.isEnabled k₁.rule && k₁.looksAt n) = true
  · have h₂ : k₂.looksAt n = false := h (Bool.and_eq_true_iff.1 h₁).2
    rw [if_pos h₁, if_pos h₁, h₂, Bool.and_false, if_neg Bool.false_ne_true, List.append_nil]
  · rw [if_neg h₁, if_neg h₁, List.nil_append]

/-! ## The built-in checks -/

namespace Complexity

theorem drafts_rule {R : RuleSet} {m : Nat} {d : Draft} (h : d ∈ drafts R m) : d.rule = rule := by
  unfold drafts at h
  dsimp only at h
  rw [List.mem_singleton.1 (List.mem_ite_nil_left.1 h).2]
  rfl

def wholeCheck : Check where
  rule := rule
  looksAt _ := true
  tells R n := drafts R ((n.preorder none).foldl (fun m v => if v.node.label.isDecision then m + 1 else m) 1)
  tells_rule R n d := drafts_rule
  tells_congr R R' h n := by rw [drafts, drafts, h]

end Complexity

namespace Security

def evalCheck : Check := .simple evalRule (fun n => callsEval n.label) (fun n => [evalCall n.label]) fun n d hd => by
  rw [List.mem_singleton.1 hd]
  rfl

def innerCheck : Check := .simple innerRule (fun n => namesInner n.label) (fun n => [innerMember n.label]) fun n d hd => by
  rw [List.mem_singleton.1 hd]
  rfl

theorem drafts_eq (R : RuleSet) (n : Node) : drafts R n = [evalCheck, innerCheck].flatMap fun k => k.drafts R n := by
  refine checks_apart evalCheck innerCheck fun h => ?_
  have hcall : (n.label.kind == .call) = true := (Bool.and_eq_true_iff.1 h).1
  have hkind : n.label.kind = .call := by simpa using hcall
  show namesInner n.label = false
  rw [namesInner, hkind]
  rfl

end Security

namespace Performance

def loopCheck : Check where
  rule := loopRule
  looksAt n := n.label.isLoop
  tells := nestedLoops
  tells_rule R n d hd := by
    unfold nestedLoops at hd
    dsimp only at hd
    rw [List.mem_singleton.1 (List.mem_ite_nil_right.1 hd).2]
    rfl
  tells_congr R R' h n := by rw [nestedLoops, nestedLoops, h]

def arrayCheck : Check where
  rule := arrayRule
  looksAt n := n.kind == .array
  tells := largeArray
  tells_rule R n d hd := by
    unfold largeArray at hd
    dsimp only at hd
    rw [List.mem_singleton.1 (List.mem_ite_nil_right.1 hd).2]
    rfl
  tells_congr R R' h n := by rw [largeArray, largeArray, h]

theorem drafts_eq (R : RuleSet) (n : Node) : drafts R n = [loopCheck, arrayCheck].flatMap fun k => k.drafts R n := by
  refine checks_apart loopCheck arrayCheck fun h => ?_
  show (n.label.kind == .array) = false
  have hloop : n.label.kind.isLoop = true := h
  revert hloop
  cases n.label.kind <;> decide

end Performance

namespace Bugs

def returnCheck : Check :=
  .simple unreachableRule (fun n => n.kind == .block) (fun n => (afterReturns n.children).map unreachable) fun n d hd => by
    obtain ⟨m, -, rfl⟩ := List.mem_map.1 hd
    rfl

def assignmentCheck : Check :=
  .simple assignmentRule testsCondition (fun n => (assignedCondition? n).toList.map assignment) fun n d hd => by
    obtain ⟨l, -, rfl⟩ := List.mem_map.1 hd
    rfl

theorem drafts_eq (R : RuleSet) (n : Node) : drafts R n = [returnCheck, assignmentCheck].flatMap fun k => k.drafts R n := by
  refine checks_apart returnCheck assignmentCheck fun h => ?_
  have hblock : (n.kind == .block) = true := h
  have hkind : n.kind = .block := by simpa using hblock
  show testsCondition n = false
  rw [testsCondition, hkind]
  rfl

end Bugs

/-! ## Passes -/

/-- An analyzer with its checks and with the nodes of a tree that they are made of.  It finds what they say. -/
structure Pass where
  analyzer : Analyzer
  checks : List Check
  nodes : Node → List Node
  analyze_none : ∀ c root, analyzer.analyze c root none =
    (c.findings analyzer.name ((nodes root).flatMap fun n => checks.flatMap fun k => k.drafts c.rules n), none)
  reports : ∀ c root dl fs, (analyzer.analyze c root dl).1 = .ok fs → ∀ f ∈ fs, ∃ k ∈ checks, f.rule.id = k.rule

theorem findings_rule {c : Context} {group : String} {ks : List Check} {ns : List Node} {fs : List Finding}
    (h : c.findings group (ns.flatMap fun n => ks.flatMap fun k => k.drafts c.rules n) = .ok fs) :
    ∀ f ∈ fs, ∃ k ∈ ks, f.rule.id = k.rule := by
  intro f hf
  obtain ⟨d, hd, hdf⟩ := (findings_spec c group _).1 fs h f hf
  obtain ⟨n, -, hd⟩ := List.mem_flatMap.1 hd
  obtain ⟨k, hk, hd⟩ := List.mem_flatMap.1 hd
  exact ⟨k, hk, (finding_rule hdf).trans (Check.drafts_rule hd).1⟩

namespace Pass

def ofDrafts (name : String) (languages : Option (List String)) (drafts : RuleSet → Node → List Draft)
    (ks : List Check) (h : ∀ R n, drafts R n = ks.flatMap fun k => k.drafts R n) : Pass where
  analyzer := .ofDrafts name languages drafts
  checks := ks
  nodes root := (root.preorder none).map (·.node)
  analyze_none c root := by
    have hdrafts : drafts c.rules = fun n => ks.flatMap fun k => k.drafts c.rules n := funext (h c.rules)
    dsimp only [Analyzer.ofDrafts]
    rw [Syntax.Walk.collect_none, findings_flatMap, hdrafts, List.flatMap_map]
  reports c root dl fs hfs f hf := by
    obtain ⟨v, -, new, hnew, hmem⟩ := Syntax.Walk.collect_mem hfs f hf
    rw [h, ← List.flatMap_singleton (fun n => ks.flatMap fun k => k.drafts c.rules n)] at hnew
    exact findings_rule hnew f hmem

def complexity : Pass where
  analyzer := Analyzer.complexity
  checks := [Complexity.wholeCheck]
  nodes root := [root]
  analyze_none c root := by
    rw [List.flatMap_singleton, List.flatMap_singleton]
    cases hr : c.rules.isEnabled Complexity.rule with
    | false =>
      rw [complexity_of_disabled hr, Check.drafts_of_disabled hr]
      rfl
    | true =>
      have hcond : (c.rules.isEnabled Complexity.wholeCheck.rule && Complexity.wholeCheck.looksAt root) = true := by
        rw [show Complexity.wholeCheck.rule = Complexity.rule from rfl, hr]
        rfl
      rw [complexity_of_enabled hr, Check.drafts, if_pos hcond]
      dsimp only
      rw [Syntax.cyclomaticComplexity, Syntax.Walk.fold_ok_none]
      rfl
  reports c root dl fs hfs f hf := by
    refine ⟨Complexity.wholeCheck, List.mem_singleton_self _, ?_⟩
    cases hr : c.rules.isEnabled Complexity.rule with
    | false =>
      rw [complexity_of_disabled hr] at hfs
      cases hfs
      cases hf
    | true =>
      rw [complexity_of_enabled hr] at hfs
      dsimp only at hfs
      cases hn : (Syntax.cyclomaticComplexity root dl).1 with
      | error e => rw [hn] at hfs; cases hfs
      | ok m =>
        rw [hn] at hfs
        obtain ⟨d, hd, hdf⟩ := (findings_spec c Complexity.rule _).1 fs hfs f hf
        exact (finding_rule hdf).trans (Complexity.drafts_rule hd)

/-- A pass reports nothing under a rule that none of its checks is under. -/
theorem spares {p : Pass} {id : String} (hid : ∀ k ∈ p.checks, k.rule ≠ id) {c : Context} {root : Node}
    {dl : Option Syntax.Deadline} {fs : List Finding} (h : (p.analyzer.analyze c root dl).1 = .ok fs) :
    ∀ f ∈ fs, f.rule.id ≠ id := by
  intro f hf
  obtain ⟨k, hk, hrule⟩ := p.reports c root dl fs h f hf
  rw [hrule]
  exact hid k hk

end Pass

def checkedPasses : List Pass := [
  .complexity,
  .ofDrafts Security.group (some [Language.javascript.name, Language.typescript.name]) Security.drafts
    [Security.evalCheck, Security.innerCheck] Security.drafts_eq,
  .ofDrafts Performance.group none Performance.drafts [Performance.loopCheck, Performance.arrayCheck]
    Performance.drafts_eq,
  .ofDrafts Bugs.group none Bugs.drafts [Bugs.returnCheck, Bugs.assignmentCheck] Bugs.drafts_eq]

theorem checkedPasses_analyzers : checkedPasses.map (·.analyzer) = Registry.builtin.analyzers := rfl

end Analyzer
end CodeReview
