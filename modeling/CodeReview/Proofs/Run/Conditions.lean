import CodeReview.Proofs.Grammar.Conditions
import CodeReview.Proofs.Run.Inside
import CodeReview.Proofs.Run.Shapes
/-!
# Assignments as conditions

An assignment that is reported as a condition is one: it stands inside of the statement that it decides on
(`conditions_inside`).
-/
namespace CodeReview

open Syntax (Deadline)

/-- A finding that points at an assignment inside of a statement, which is the condition of the statement. -/
def PointsInside (root : Syntax.Node) (f : Finding) : Prop :=
  ∃ path statement below test, root.at? path = some statement ∧
    (statement.kind = .conditional ∨ statement.kind = .whileLoop) ∧
    statement.condition = some (.inside below) ∧ below ≠ [] ∧ statement.at? below = some test ∧
    test.kind = .assignment ∧ f.location.line = test.label.line ∧ f.location.column = test.label.column

namespace Analyzer

theorem eq_assignmentCheck : ∀ p ∈ checkedPasses, ∀ k ∈ p.checks, k.rule = Bugs.assignmentRule →
    k = Bugs.assignmentCheck := by
  simp only [checkedPasses, Pass.complexity, Pass.ofDrafts, List.forall_mem_cons, List.not_mem_nil, false_implies,
    implies_true, and_true]
  exact ⟨fun h => absurd h (by decide), ⟨fun h => absurd h (by decide), fun h => absurd h (by decide)⟩,
    ⟨fun h => absurd h (by decide), fun h => absurd h (by decide)⟩, fun h => absurd h (by decide)⟩

/-- **A finding of an assignment as a condition points at what a statement tests.** -/
theorem assignment_found {x : Analyzer} (hx : x ∈ Registry.builtin.analyzers) {c : Context} {root : Syntax.Node}
    {dl : Option Deadline} {fs : List Finding} (h : (x.analyze c root dl).1 = .ok fs) :
    ∀ f ∈ fs, f.rule.id = Bugs.assignmentRule → ∃ path statement l, root.at? path = some statement ∧
      Bugs.testsCondition statement = true ∧ statement.test? = some l ∧ l.kind = .assignment ∧
      f.location.line = l.line ∧ f.location.column = l.column := by
  rw [← checkedPasses_analyzers] at hx
  obtain ⟨p, hp, rfl⟩ := List.mem_map.1 hx
  intro f hf hrule
  obtain ⟨n, hn, k, hk, d, hd, hdf⟩ := exists_draft_of_ok hp h f hf
  obtain ⟨path, hat⟩ := exists_at_of_mem_nodes root p hp n hn
  have hcheck : k = Bugs.assignmentCheck := by
    refine eq_assignmentCheck p hp k hk ?_
    rw [← (Check.drafts_rule hd).1, ← finding_rule hdf, hrule]
  subst hcheck
  obtain ⟨hcond, hd⟩ := List.mem_ite_nil_right.1 hd
  obtain ⟨l, hl, rfl⟩ := List.mem_map.1 hd
  obtain ⟨htest, hkind⟩ := Option.filter_eq_some_iff.1 (Option.mem_toList.1 hl)
  obtain ⟨hline, hcolumn⟩ := finding_place hdf
  exact ⟨path, n, l, hat, (Bool.and_eq_true_iff.1 hcond).2, htest, beq_iff_eq.1 hkind, hline, hcolumn⟩

end Analyzer

namespace Run

open Grammar (Host Session)

namespace FileAnalyzer

variable {a : FileAnalyzer} {host : Host} {tolerant : Bool}

theorem found_assignments (hp : a.parse = hostParse host tolerant)
    (hx : ∀ x ∈ a.registry.analyzers, x ∈ Registry.builtin.analyzers) {session : Session} {path text language : String}
    {dl : Option Deadline} {fs : List Finding} (h : Found a session path text language dl fs) :
    ∀ f ∈ fs, f.rule.id = "no-assignment-in-condition" →
      ∃ root, (a.parse session path text language dl).1.outcome = .ok root ∧ PointsInside root f := by
  refine h.forall_findings (fun message timedOut hrule => ?_) fun root hroot x hmem dl' gs hgs f hf hrule => ?_
  · exact absurd (show parseErrorId = "no-assignment-in-condition" from hrule) (by decide)
  have hmade : (Grammar.parse host tolerant session text language dl).1.outcome = .ok root := by rwa [hp] at hroot
  obtain ⟨l, g, tree, -, -, -, hnormal⟩ := Grammar.exists_made hmade
  obtain ⟨path, statement, label, hat, htests, htest, hkind, hline, hcolumn⟩ :=
    Analyzer.assignment_found (hx x hmem) hgs f hf hrule
  obtain ⟨m, -, hconditioned⟩ := Grammar.normal_conditioned_at (hnormal ▸ hat)
  obtain ⟨below, test, hcondition, hne, hbelow, rfl⟩ := hconditioned.exists_test htest
  have hstatement : statement.kind = .conditional ∨ statement.kind = .whileLoop := by
    simpa [Analyzer.Bugs.testsCondition] using htests
  exact ⟨root, hroot, path, statement, below, test, hat, hstatement, hcondition, hne, hbelow, hkind, hline, hcolumn⟩

/-- **The condition of a node is the right one, and comes from inside it.**  Unwrapping ends on every tree.  In each tree that a
normalization makes, the condition of a node is below the first of its children that has the type and the byte range of the
condition field, inside all wrappers; only branches and loops have one.  So an assignment that is reported as a condition
stands inside of the statement that it decides on. -/
theorem conditions_inside :
    WellFounded (fun b a => Grammar.Enters a b) ∧
    (∀ (t : Grammar.Table) (s : Grammar.Source) (tree : Concrete.Node) (dl : Option Deadline) (root : Syntax.Node),
      (Grammar.normalize t s tree dl).1 = .ok root → ∀ path n, root.at? path = some n →
        ∃ m, Grammar.keptAt? tree path = some m ∧ Grammar.Conditioned t s m n) ∧
    ∀ (a : FileAnalyzer) (host : Host) (tolerant : Bool), a.parse = hostParse host tolerant →
      (∀ x ∈ a.registry.analyzers, x ∈ Registry.builtin.analyzers) →
      ∀ (session : Session) (path text : String) (given : Option String) (r : Analyzed),
      a.analyze session path text given = .ok r →
      ∀ f ∈ r.result.findings, f.rule.id = "no-assignment-in-condition" → ∃ language dl root,
        languageOf path given = some language ∧ a.budget = .ok dl ∧
        (a.parse session path text language dl).1.outcome = .ok root ∧ PointsInside root f := by
  refine ⟨Grammar.enters_wellFounded, fun t s tree dl root h path n hn => ?_,
    fun a host tolerant hp hx session path text given r hr => ?_⟩
  · rw [Grammar.normalize_ok h] at hn
    exact Grammar.normal_conditioned_at hn
  · rcases analyze_ok hr with ⟨-, hnone⟩ | ⟨language, dl, hl, hb, rfl⟩
    · rw [hnone]
      exact fun f hf => by cases hf
    · obtain ⟨fs, hfs, -, hfindings⟩ := analyzeWithin_found (a := a) session path text language dl
      rw [hfindings]
      intro f hf hrule
      obtain ⟨g, hg, n, rfl⟩ := exists_of_mem_finish hf
      obtain ⟨root, hroot, hpoints⟩ := found_assignments hp hx hfs g hg hrule
      exact ⟨language, dl, root, hl, hb, hroot, hpoints⟩

/-- What a grammar of JavaScript makes of `if ((a = 1)) {}`. -/
def assigningBranch : Concrete.Node :=
  .mk ⟨"if_statement", 0, 15, true, false, false, none, ⟨0, 0⟩, ⟨0, 15⟩, false⟩
    [.mk ⟨"parenthesized_expression", 3, 12, true, false, false, some "condition", ⟨0, 3⟩, ⟨0, 12⟩, false⟩
      [.mk ⟨"parenthesized_expression", 4, 11, true, false, false, none, ⟨0, 4⟩, ⟨0, 11⟩, false⟩
        [Grammar.leafOf "assignment_expression" 5 10 true none]],
      Grammar.leafOf "statement_block" 13 15 true (some "consequence")]

def assignedNode : Syntax.Node := .mk ⟨.assignment, "assignment_expression", 1, 6, 1, 11, none, none, none⟩ none []

def bracketNode : Syntax.Node :=
  .mk ⟨.other, "parenthesized_expression", 1, 5, 1, 12, none, none, none⟩ none [assignedNode]

def conditionNode : Syntax.Node :=
  .mk ⟨.other, "parenthesized_expression", 1, 4, 1, 13, none, none, none⟩ none [bracketNode]

def branchNode : Syntax.Node :=
  .mk ⟨.conditional, "if_statement", 1, 1, 1, 16, none, none, none⟩ (some (.inside [0, 0, 0]))
    [conditionNode, .mk ⟨.block, "statement_block", 1, 14, 1, 16, none, none, none⟩ none []]

theorem normal_assigningBranch :
    Grammar.normal (Grammar.tableOf .javascript) (Grammar.Source.ofText "if ((a = 1)) {}") assigningBranch = branchNode := by
  have hunwrap : Grammar.unwrap conditionNode = [0, 0] := by
    have hend : ¬ ∃ b, Grammar.Enters assignedNode b := fun ⟨b, hwrapper, _⟩ => absurd hwrapper (by decide)
    rw [Grammar.unwrap_of_enters (b := bracketNode) ⟨by decide, rfl⟩,
      Grammar.unwrap_of_enters (b := assignedNode) ⟨by decide, rfl⟩, Grammar.unwrap_of_not_enters hend]
    rfl
  show Syntax.Node.mk branchNode.label (some (.inside (0 :: Grammar.unwrap conditionNode))) branchNode.children = _
  rw [hunwrap]
  rfl

def assigning : FileAnalyzer where
  parse := hostParse (.constant assigningBranch) false
  timeout := none

/-- The assignment behind two brackets is found where it is. -/
theorem assignment_behind_brackets : ∃ r f, assigning.analyze {} "a.js" "if ((a = 1)) {}" none = .ok r ∧
    f ∈ r.result.findings ∧ f.location.line = 1 ∧ f.location.column = 6 ∧ PointsInside branchNode f := by
  have hl : languageOf "a.js" none = some "javascript" := by decide +kernel
  have hb : assigning.budget = .ok none := rfl
  have hroot : (assigning.parse {} "a.js" "if ((a = 1)) {}" "javascript" none).1.outcome = .ok branchNode := by
    rw [← normal_assigningBranch]
    exact (Grammar.Host.constant_makes assigningBranch "if ((a = 1)) {}" _).parseAfter_outcome (l := .javascript) false []
  have hresult : (assigning.analyzeWithin {} "a.js" "if ((a = 1)) {}" "javascript" none).result.findings.map
      (fun f => (f.rule.id, f.location.line, f.location.column)) = [("no-assignment-in-condition", 1, 6)] := by
    have hleft : (assigning.parse {} "a.js" "if ((a = 1)) {}" "javascript" none).2 = none :=
      Option.map_eq_none_iff.1 (hostParse_keepsBudget (.constant assigningBranch) false {} "a.js" "if ((a = 1)) {}"
        "javascript" none Syntax.inRange_none)
    rw [analyzeWithin_result, hroot, hleft]
    decide +kernel
  obtain ⟨f, hf, hfound⟩ : ∃ f ∈ (assigning.analyzeWithin {} "a.js" "if ((a = 1)) {}" "javascript" none).result.findings,
      (f.rule.id, f.location.line, f.location.column) = ("no-assignment-in-condition", (1 : Int), (6 : Int)) :=
    List.mem_map.1 (by rw [hresult]; exact List.mem_singleton_self _)
  obtain ⟨hrule, hplace⟩ := Prod.mk.inj hfound
  obtain ⟨hline, hcolumn⟩ := Prod.mk.inj hplace
  have hr := analyze_of_budget hl hb {} "if ((a = 1)) {}"
  obtain ⟨language, dl, root, hl', hb', hroot', hinside⟩ := conditions_inside.2.2 assigning (.constant assigningBranch) false
    rfl (fun x hx => hx) {} "a.js" _ none _ hr f hf hrule
  cases hl'.symm.trans hl
  cases hb'.symm.trans hb
  cases hroot'.symm.trans hroot
  exact ⟨_, f, hr, hf, hline, hcolumn, hinside⟩

end FileAnalyzer
end Run
end CodeReview
