import CodeReview.Proofs.Analyzer.Returns
/-!
# Findings of subtrees

The passes for security, performance and bugs go over a tree node by node.  What they find in it is what they find of its
root, followed by what they find in its children (`ofDrafts_composes`), and of a node they find what its kind, its name, its
size as an array, its condition, its children and, for a loop, its depth tell (`Alike`): the rest of the node only says where
that stands.

A statement right after a return is found once for each return that is not the last statement of its block
(`made_returns`).
-/
namespace CodeReview

open Syntax (Node Label Kind Condition maxLoopDepth)

def Draft.movedTo (d : Draft) (l : Label) : Draft := { d with line := l.line, column := l.column }

def Finding.movedTo (f : Finding) (path : String) (l : Label) : Finding :=
  { f with
    id := f.rule.id ++ ":" ++ path ++ ":" ++ toString l.line
    location := { path, line := l.line, column := l.column } }

namespace Analyzer

/-- Nodes that the checks of single nodes cannot tell apart but for where they stand. -/
structure Alike (n m : Node) : Prop where
  kind : n.kind = m.kind
  name : n.label.name = m.label.name
  elementCount : n.label.elementCount = m.label.elementCount
  test : n.test? = m.test?
  depth : n.kind.isLoop = true → maxLoopDepth n = maxLoopDepth m
  children : n.kind.isLoop = false →
    List.Forall₂ (fun c d => c.label = d.label ∧ (IsReturnStatement c ↔ IsReturnStatement d)) n.children m.children

/-- That findings of two nodes are the same, or the same but for standing at the one node and at the other. -/
def Corresponds (path : String) (n m : Node) (f g : Finding) : Prop :=
  g = f ∨ f = f.movedTo path n.label ∧ g = f.movedTo path m.label

/-- The kinds of nodes that no check of single nodes looks at. -/
def plainKinds : List Kind := [.other, .module, .function, .classDecl]

/-- That an analyzer finds in a tree what it finds of its nodes: `own` of each node, and `found` in each tree. -/
structure Composes (a : Analyzer) (c : Context) (found own : Node → List Finding) : Prop where
  analyze : ∀ n, a.analyze c n none = (.ok (found n), none)
  compose : ∀ n, found n = own n ++ n.children.flatMap found
  alike : ∀ n m, Alike n m → List.Forall₂ (Corresponds c.path n m) (own n) (own m)
  plain : ∀ n, n.kind ∈ plainKinds → own n = []

theorem Composes.joined {a : Analyzer} {c : Context} {found own : Node → List Finding} (h : Composes a c found own) {n : Node}
    (hn : n.kind ∈ plainKinds) : found n = n.children.flatMap found := by
  rw [h.compose, h.plain n hn, List.nil_append]

theorem Composes.wrapped {a : Analyzer} {c : Context} {found own : Node → List Finding} (h : Composes a c found own) (n : Node) :
    ∀ wrappers : List (Label × Option Condition), (∀ w ∈ wrappers, w.1.kind ∈ plainKinds) →
      found (wrappers.foldr (fun w n => .mk w.1 w.2 [n]) n) = found n
  | [], _ => rfl
  | w :: wrappers, hw => by
    have ih := h.wrapped n wrappers fun v hv => hw v (List.mem_cons_of_mem w hv)
    have hplain : (Node.mk w.1 w.2 [wrappers.foldr (fun w n => .mk w.1 w.2 [n]) n]).kind ∈ plainKinds :=
      hw w (List.mem_cons_self ..)
    rw [List.foldr_cons, h.joined hplain, Node.children, List.flatMap_singleton, ih]

/-! ## Drafts of nodes that look alike -/

section

variable {c : Context} {group : String}

theorem finding_movedTo (d : Draft) (l : Label) :
    c.finding group (d.movedTo l) = (c.finding group d).map fun f => f.movedTo c.path l := by
  have hrule : (d.movedTo l).rule = d.rule := rfl
  rw [Context.finding, Context.finding, hrule]
  cases c.rules.enabledIn? group d.rule with
  | none => rfl
  | some r =>
    dsimp only
    cases href : r.ref with
    | error e => rfl
    | ok ref =>
      dsimp only [Except.map, Finding.movedTo]
      rw [ref_id href]
      rfl

theorem made_corresponds {n m : Node} {ds es : List Draft}
    (h : List.Forall₂ (fun d e => e = d ∨ d = d.movedTo n.label ∧ e = d.movedTo m.label) ds es) :
    List.Forall₂ (Corresponds c.path n m) (c.made group ds) (c.made group es) := by
  induction h with
  | nil => exact .nil
  | @cons d e ds es hde _ ih =>
    have hmoved : ∀ l, c.finding group (d.movedTo l) = (c.finding group d).map fun f => f.movedTo c.path l :=
      finding_movedTo d
    -- whether a draft makes a finding does not depend on its place
    cases hd : c.finding group d with
    | error why =>
      have he : c.finding group e = .error why := by
        rcases hde with rfl | ⟨-, rfl⟩
        · exact hd
        · rw [hmoved, hd]
          rfl
      rw [made_cons_of_error hd, made_cons_of_error he]
      exact ih
    | ok f =>
      rcases hde with heq | ⟨hhere, rfl⟩
      · rw [heq, made_cons hd, made_cons hd]
        exact .cons (.inl rfl) ih
      · have he : c.finding group (d.movedTo m.label) = .ok (f.movedTo c.path m.label) := by
          rw [hmoved, hd]
          rfl
        have hf : f = f.movedTo c.path n.label := by
          have hsame := hmoved n.label
          rw [← hhere, hd] at hsame
          exact Except.ok.inj hsame
        rw [made_cons hd, made_cons he]
        exact .cons (.inr ⟨hf, rfl⟩) ih

end

/-- A check of nodes tells the same of nodes that look alike, but for where they stand. -/
def TellsAlike (drafts : RuleSet → Node → List Draft) : Prop := ∀ R n m, Alike n m →
  List.Forall₂ (fun d e => e = d ∨ d = d.movedTo n.label ∧ e = d.movedTo m.label) (drafts R n) (drafts R m)

theorem Security.drafts_alike : TellsAlike Security.drafts := by
  intro R n m h
  have hkind : n.label.kind = m.label.kind := h.kind
  have heval : callsEval n.label = callsEval m.label := by rw [callsEval, callsEval, hkind, h.name]
  have hinner : namesInner n.label = namesInner m.label := by rw [namesInner, namesInner, hkind, h.name]
  unfold drafts
  rw [heval, hinner]
  split
  · exact .cons (.inr ⟨rfl, rfl⟩) .nil
  · split
    · exact .cons (.inr ⟨rfl, rfl⟩) .nil
    · exact .nil

theorem Performance.drafts_alike : TellsAlike Performance.drafts := by
  intro R n m h
  have hkind : n.label.kind = m.label.kind := h.kind
  have hloop : n.label.isLoop = m.label.isLoop := by rw [Label.isLoop, Label.isLoop, hkind]
  have harray : (n.kind == .array) = (m.kind == .array) := by rw [h.kind]
  unfold drafts
  rw [← hloop, ← harray]
  split
  · rename_i hcond
    have hdepth := h.depth (Bool.and_eq_true_iff.1 hcond).2
    unfold nestedLoops
    rw [hdepth]
    dsimp only
    split
    · exact .cons (.inr ⟨rfl, rfl⟩) .nil
    · exact .nil
  · split
    · unfold largeArray
      rw [h.elementCount]
      dsimp only
      split
      · exact .cons (.inr ⟨rfl, rfl⟩) .nil
      · exact .nil
    · exact .nil

namespace Bugs

theorem drafts_alike : TellsAlike Bugs.drafts := by
  intro R n m h
  have hblock : (n.kind == .block) = (m.kind == .block) := by rw [h.kind]
  have htests : testsCondition n = testsCondition m := by rw [testsCondition, testsCondition, h.kind]
  have hsame : drafts R n = drafts R m := by
    unfold drafts
    rw [← hblock, ← htests]
    split
    · rename_i hcond
      have hkind : n.kind = .block := beq_iff_eq.1 (Bool.and_eq_true_iff.1 hcond).2
      exact afterReturns_alike (h.children (by rw [hkind]; rfl))
    · rw [assignedCondition?, assignedCondition?, h.test]
  rw [hsame]
  exact List.forall₂_same.2 fun d _ => .inl rfl

end Bugs

/-! ## Passes -/

/-- **A pass of drafts finds in a tree what it finds of the root, and then in each child.** -/
theorem ofDrafts_composes {name : String} {languages : Option (List String)} {drafts : RuleSet → Node → List Draft}
    {ks : List Check} {h : ∀ R n, drafts R n = ks.flatMap fun k => k.drafts R n} {c : Context}
    (hfits : (Pass.ofDrafts name languages drafts ks h).Fits c.rules) (halike : TellsAlike drafts)
    (hplain : ∀ R n, n.kind ∈ plainKinds → drafts R n = []) :
    Composes (.ofDrafts name languages drafts) c (fun n => c.made name (n.nodes.flatMap (drafts c.rules)))
      (fun n => c.made name (drafts c.rules n)) where
  analyze n := by
    refine ofDrafts_made h languages (fun k hk hon => ⟨hfits.enabledIn? hk hon, ?_⟩) n
    obtain ⟨r, hr, -, hid⟩ := hfits k hk
    exact RuleSet.find?_id hr ▸ hid
  compose n := by
    obtain ⟨l, cond, cs⟩ := n
    rw [Node.nodes_mk, List.flatMap_cons, made_append, List.flatMap_assoc, made_flatMap]
    rfl
  alike n m hnm := made_corresponds (halike c.rules n m hnm)
  plain n hn := by
    rw [hplain c.rules n hn]
    rfl

theorem drafts_plain (R : RuleSet) (n : Node) (h : n.kind ∈ plainKinds) :
    Security.drafts R n = [] ∧ Performance.drafts R n = [] ∧ Bugs.drafts R n = [] := by
  have hkinds : n.kind = .other ∨ n.kind = .module ∨ n.kind = .function ∨ n.kind = .classDecl := by
    simpa [plainKinds] using h
  have hlabel : n.label.kind = n.kind := rfl
  rcases hkinds with hk | hk | hk | hk <;>
    simp [Security.drafts, Security.callsEval, Security.namesInner, Performance.drafts, Label.isLoop, Kind.isLoop,
      Bugs.drafts, Bugs.testsCondition, hlabel, hk]

theorem composes_of_fits {c : Context} (hfits : ∀ p ∈ checkedPasses, p.Fits c.rules) :
    ∀ a ∈ [security, performance, bugs], ∃ found own, Composes a c found own := by
  simp only [checkedPasses, List.forall_mem_cons, List.not_mem_nil, false_implies, implies_true, and_true] at hfits ⊢
  obtain ⟨-, hsecurity, hperformance, hbugs⟩ := hfits
  refine ⟨⟨_, _, ofDrafts_composes hsecurity Security.drafts_alike fun R n hn => (drafts_plain R n hn).1⟩,
    ⟨_, _, ofDrafts_composes hperformance Performance.drafts_alike fun R n hn => (drafts_plain R n hn).2.1⟩,
    ⟨_, _, ofDrafts_composes hbugs Bugs.drafts_alike fun R n hn => (drafts_plain R n hn).2.2⟩⟩

/-- **Findings compose over subtrees.**  By the built-in rules, whatever the overrides, the passes for security, performance
and bugs find in a tree what they find of its root, followed by what they find in its children.  Nodes that no check looks at
may be put around a tree, and trees together under one, with no other findings.

Statements after a return are reported for the returns in blocks that are not the last statement, each once, at the statement
that follows. -/
theorem findings_compose {chain : List (Entries Value)} {R : RuleSet}
    (hchain : chain.foldlM RuleSet.withOverrides .builtin = .ok R) (path language : String) :
    (∀ a ∈ [security, performance, bugs], ∃ found own, Composes a ⟨path, language, R⟩ found own ∧
      (∀ l cond cs, l.kind ∈ plainKinds → found (.mk l cond cs) = cs.flatMap found) ∧
      ∀ (wrappers : List (Label × Option Condition)) (n : Node), (∀ w ∈ wrappers, w.1.kind ∈ plainKinds) →
        found (wrappers.foldr (fun w n => .mk w.1 w.2 [n]) n) = found n) ∧
    ∀ root, ∃ fs, bugs.analyze ⟨path, language, R⟩ root none = (.ok fs, none) ∧
      (R.isEnabled Bugs.unreachableRule = true → ∃ places, Bugs.ReportsReturns path root fs places) ∧
      (R.isEnabled Bugs.unreachableRule = false → ∀ f ∈ fs, f.rule.id ≠ Bugs.unreachableRule) := by
  have hfits := fits_of_chain hchain
  refine ⟨fun a ha => ?_, fun root => ?_⟩
  · obtain ⟨found, own, h⟩ := composes_of_fits (c := ⟨path, language, R⟩) hfits a ha
    exact ⟨found, own, h, fun l cond cs hl => h.joined (n := .mk l cond cs) hl, fun wrappers n hw => h.wrapped n wrappers hw⟩
  · have hbugs := hfits _ (List.mem_cons_of_mem _ (List.mem_cons_of_mem _ (List.mem_cons_of_mem _ (List.mem_cons_self ..))))
    have hcomposes := ofDrafts_composes (c := ⟨path, language, R⟩) hbugs Bugs.drafts_alike
      fun R n hn => (drafts_plain R n hn).2.2
    refine ⟨_, hcomposes.analyze root, fun hon => ⟨_, Bugs.made_returns (c := ⟨path, language, R⟩) hon ?_ root⟩, fun hoff => ?_⟩
    · exact hbugs.enabledIn? (k := Bugs.returnCheck) (List.mem_cons_self ..) hon
    · exact Bugs.made_returns_of_disabled (c := ⟨path, language, R⟩) hoff root

def nodeOn (kind : Kind) (grammarType : String) (line : Int) (below : List Node) : Node :=
  .mk ⟨kind, grammarType, line, 1, line, 2, none, none, none⟩ none below

/-- A block with a bare return, a call after it, a return in an expression statement, and a call after that one. -/
def twoReturns : Node :=
  nodeOn .block "block" 1 [nodeOn .returnStmt "return_statement" 2 [], nodeOn .call "call_expression" 3 [],
    nodeOn .other "expression_statement" 4 [nodeOn .returnStmt "return_expression" 4 []],
    nodeOn .call "call_expression" 5 []]

/-- Of two returns the statements after them are reported, in a module as well, by rules with another limit for loops. -/
theorem two_returns_reported : ∃ R fs places,
    [[(Performance.loopRule, Value.map [("threshold", .int 3)])]].foldlM RuleSet.withOverrides .builtin = .ok R ∧
    bugs.analyze ⟨"a.rs", "rust", R⟩ twoReturns none = (.ok fs, none) ∧
    bugs.analyze ⟨"a.rs", "rust", R⟩ (nodeOn .module "source_file" 1 [twoReturns]) none = (.ok fs, none) ∧
    Bugs.ReportsReturns "a.rs" twoReturns fs places ∧ ([], 0) ∈ places ∧ ([], 2) ∈ places ∧ ([], 1) ∉ places := by
  have hlimit : RuleSet.builtin.withOverrides [(Performance.loopRule, .map [("threshold", .int 3)])] =
      .ok (RuleSet.builtin.limited Performance.loopRule 3) := RuleSet.limit_rule (by decide) (by decide) (by decide)
  have hchain : [[(Performance.loopRule, Value.map [("threshold", .int 3)])]].foldlM RuleSet.withOverrides .builtin =
      .ok (RuleSet.builtin.limited Performance.loopRule 3) := by rw [RuleSet.withOverrides_flatten]; exact hlimit
  obtain ⟨hcompose, hreturns⟩ := findings_compose hchain "a.rs" "rust"
  obtain ⟨found, own, h, hjoined, -⟩ := hcompose bugs (by simp)
  obtain ⟨fs, hfs, hreports, -⟩ := hreturns twoReturns
  obtain ⟨places, hplaces⟩ := hreports (by rw [RuleSet.isEnabled_limited]; decide)
  have hfound : found twoReturns = fs := by
    have hsame := (h.analyze twoReturns).symm.trans hfs
    cases hsame
    rfl
  have hmodule : found (nodeOn .module "source_file" 1 [twoReturns]) = fs := by
    rw [nodeOn, hjoined _ _ _ (by decide), List.flatMap_singleton, hfound]
  refine ⟨_, fs, places, hchain, hfs, hmodule ▸ h.analyze _, hplaces, ?_, ?_, ?_⟩
  · exact (hplaces.mem_iff [] 0).2 ⟨twoReturns, _, _, rfl, rfl, rfl, .inl rfl, rfl⟩
  · exact (hplaces.mem_iff [] 2).2 ⟨twoReturns, _, _, rfl, rfl, rfl, .inr ⟨rfl, _, rfl, rfl⟩, rfl⟩
  · intro hmem
    obtain ⟨b, r, s, hb, -, hr, hreturn, -⟩ := (hplaces.mem_iff [] 1).1 hmem
    cases hb
    cases hr
    rw [← Bugs.isReturn_iff] at hreturn
    exact absurd hreturn (by decide)

end Analyzer
end CodeReview
