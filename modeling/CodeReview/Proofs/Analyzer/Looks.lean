import CodeReview.Analyzer.Registry
import CodeReview.Proofs.Syntax.Visits
/-!
# The looks of analyzers at a time budget

The built-in analyzers are timely, fail by no timeout of their own (`builtin_untimed`), and look at a time budget once
for every 512 nodes they visit (`builtin_polled`).  `builtinPasses` names the number of nodes that each of them visits:
all, or none where the rule of the pass is disabled, or those before the first node at which a draft fits no rule.
-/
namespace CodeReview
namespace Analyzer

open Syntax (Polled Node)

/-- An analyzer that uses a time budget only to look at it, and ends with the timeout of the budget where it does not
end as it would without one. -/
def Timely (x : Analyzer) : Prop := ∀ c root, Syntax.Timely (x.analyze c root)

/-- An analyzer that without a time budget fails by no timeout. -/
def Untimed (x : Analyzer) : Prop := ∀ c root e, (x.analyze c root none).1 = .error e → e.isTimeout = false

/-! ## Findings of drafts -/

theorem finding_error {c : Context} {group : String} {d : Draft} {e : Failure} (h : c.finding group d = .error e) :
    e.isTimeout = false := by
  unfold Context.finding at h
  split at h
  · cases h; rfl
  · split at h
    · cases h; rfl
    · cases h

theorem findings_cons (c : Context) (group : String) (d : Draft) (ds : List Draft) :
    c.findings group (d :: ds) = (c.finding group d).bind fun f => (c.findings group ds).map (f :: ·) := by
  rw [Context.findings, List.mapM_cons]
  cases c.finding group d with
  | error e => rfl
  | ok f =>
    rw [Context.findings]
    cases ds.mapM (c.finding group) <;> rfl

theorem findings_append (c : Context) (group : String) (ds es : List Draft) :
    c.findings group (ds ++ es) =
      (c.findings group ds).bind fun fs => (c.findings group es).map (fs ++ ·) := by
  rw [Context.findings, List.mapM_append]
  rfl

theorem findings_flatMap {α : Type} (c : Context) (group : String) (drafts : α → List Draft) : ∀ (xs : List α),
    (xs.mapM fun x => c.findings group (drafts x)).map List.flatten = c.findings group (xs.flatMap drafts)
  | [] => rfl
  | x :: xs => by
    rw [List.flatMap_cons, findings_append, ← findings_flatMap c group drafts xs, List.mapM_cons]
    cases c.findings group (drafts x) with
    | error e => rfl
    | ok fs =>
      cases xs.mapM fun x => c.findings group (drafts x) <;> rfl

/-- **What the findings of drafts come to, a draft comes to**: each of them is that of a draft, or their failure is. -/
theorem findings_spec (c : Context) (group : String) (ds : List Draft) :
    (∀ fs, c.findings group ds = .ok fs → ∀ f ∈ fs, ∃ d ∈ ds, c.finding group d = .ok f) ∧
      ∀ e, c.findings group ds = .error e → ∃ d ∈ ds, c.finding group d = .error e := by
  induction ds with
  | nil =>
    constructor
    · intro fs h f hf
      cases h
      cases hf
    · intro e h
      cases h
  | cons d ds ih =>
    obtain ⟨hok, herror⟩ := ih
    rw [findings_cons]
    cases hd : c.finding group d with
    | error why =>
      refine ⟨fun fs h => (by cases h), fun e h => ?_⟩
      cases h
      exact ⟨d, by simp, hd⟩
    | ok g =>
      cases hds : c.findings group ds with
      | error why =>
        refine ⟨fun fs h => (by cases h), fun e h => ?_⟩
        cases h
        obtain ⟨d', hmem, h'⟩ := herror why hds
        exact ⟨d', by simp [hmem], h'⟩
      | ok gs =>
        refine ⟨fun fs h f hf => ?_, fun e h => (by cases h)⟩
        cases h
        rcases List.mem_cons.1 hf with rfl | hf
        · exact ⟨d, by simp, hd⟩
        · obtain ⟨d', hmem, h'⟩ := hok gs hds f hf
          exact ⟨d', by simp [hmem], h'⟩

theorem findings_error {c : Context} {group : String} {ds : List Draft} {e : Failure}
    (h : c.findings group ds = .error e) : e.isTimeout = false := by
  obtain ⟨d, -, hd⟩ := (findings_spec c group ds).2 e h
  exact finding_error hd

/-! ## Passes that make drafts -/

/-- The number of nodes that a pass visits which makes drafts: those before the first at which a draft fits no rule. -/
def draftVisits (name : String) (drafts : RuleSet → Node → List Draft) (c : Context) (root : Node) : Nat :=
  ((root.preorder none).takeWhile fun v => (c.findings name (drafts c.rules v.node)).toBool).length

theorem draftVisits_le (name : String) (drafts : RuleSet → Node → List Draft) (c : Context) (root : Node) :
    draftVisits name drafts c root ≤ root.size := by
  rw [draftVisits, ← Syntax.length_preorder root none]
  exact (List.takeWhile_sublist _).length_le

theorem ofDrafts_polled (name : String) (languages : Option (List String)) (drafts : RuleSet → Node → List Draft)
    (c : Context) (root : Node) :
    Polled ((ofDrafts name languages drafts).analyze c root) (draftVisits name drafts c root / 512) :=
  Syntax.Walk.collect_polled (fun v => c.findings name (drafts c.rules v.node)) root

theorem ofDrafts_sameOrSpent (name : String) (languages : Option (List String)) (drafts : RuleSet → Node → List Draft)
    (c : Context) (root : Node) : Syntax.SameOrSpent ((ofDrafts name languages drafts).analyze c root) :=
  Syntax.Walk.collect_sameOrSpent (fun v => c.findings name (drafts c.rules v.node)) root

theorem ofDrafts_untimed (name : String) (languages : Option (List String)) (drafts : RuleSet → Node → List Draft) :
    (ofDrafts name languages drafts).Untimed := fun c root e h => by
  obtain ⟨v, -, hv⟩ := Syntax.Walk.collect_error (fun v => c.findings name (drafts c.rules v.node)) root e h
  exact findings_error hv

/-! ## Complexity -/

def complexityVisits (c : Context) (root : Node) : Nat := if c.rules.isEnabled Complexity.rule then root.size else 0

theorem complexityVisits_le (c : Context) (root : Node) : complexityVisits c root ≤ root.size := by
  unfold complexityVisits
  split
  · exact Nat.le_refl root.size
  · exact Nat.zero_le root.size

theorem complexity_of_disabled {c : Context} (h : c.rules.isEnabled Complexity.rule = false) (root : Node) :
    complexity.analyze c root = fun dl => (.ok [], dl) := by
  simp only [complexity, h, Bool.not_false, if_true]

theorem complexity_of_enabled {c : Context} (h : c.rules.isEnabled Complexity.rule = true) (root : Node) :
    complexity.analyze c root = fun dl =>
      ((Syntax.cyclomaticComplexity root dl).1.bind fun n => c.findings Complexity.rule (Complexity.drafts c.rules n),
        (Syntax.cyclomaticComplexity root dl).2) := by
  simp only [complexity, h, Bool.not_true, Bool.false_eq_true, if_false]

theorem complexity_polled (c : Context) (root : Node) :
    Polled (complexity.analyze c root) (complexityVisits c root / 512) := by
  unfold complexityVisits
  cases h : c.rules.isEnabled Complexity.rule with
  | false =>
    rw [complexity_of_disabled h, if_neg Bool.false_ne_true, Nat.zero_div]
    exact Syntax.polled_pure (.ok [])
  | true =>
    rw [complexity_of_enabled h]
    exact (Syntax.Walk.fold_ok_polled (fun n v => if v.node.label.isDecision then n + 1 else n) 1 root).map
      (fun out => out.bind fun n => c.findings Complexity.rule (Complexity.drafts c.rules n)) (fun _ => rfl)

theorem complexity_sameOrSpent (c : Context) (root : Node) : Syntax.SameOrSpent (complexity.analyze c root) := by
  cases h : c.rules.isEnabled Complexity.rule with
  | false =>
    rw [complexity_of_disabled h]
    exact fun _ => .inl rfl
  | true =>
    rw [complexity_of_enabled h]
    exact (Syntax.Walk.fold_sameOrSpent _ 1 root).map
      (fun out => out.bind fun n => c.findings Complexity.rule (Complexity.drafts c.rules n)) (fun _ => rfl)

theorem complexity_untimed : complexity.Untimed := fun c root e h => by
  cases hr : c.rules.isEnabled Complexity.rule with
  | false =>
    rw [complexity_of_disabled hr] at h
    cases h
  | true =>
    rw [complexity_of_enabled hr] at h
    dsimp only at h
    rw [Syntax.cyclomaticComplexity, Syntax.Walk.fold_ok_none] at h
    exact findings_error h

/-! ## The built-in analyzers -/

def builtinPasses : List (Analyzer × (Context → Node → Nat)) := [
  (complexity, complexityVisits),
  (security, draftVisits Security.group Security.drafts),
  (performance, draftVisits Performance.group Performance.drafts),
  (bugs, draftVisits Bugs.group Bugs.drafts)]

theorem builtinPasses_map_fst : builtinPasses.map (·.1) = Registry.builtinAnalyzers := rfl

theorem builtinPasses_le (c : Context) (root : Node) : ∀ p ∈ builtinPasses, p.2 c root ≤ root.size := by
  simp only [builtinPasses, List.forall_mem_cons, List.not_mem_nil, false_implies, implies_true, and_true]
  exact ⟨complexityVisits_le c root, draftVisits_le _ _ c root, draftVisits_le _ _ c root, draftVisits_le _ _ c root⟩

/-- **Each built-in analyzer looks at its time budget once for every 512 nodes it visits.** -/
theorem builtin_polled (c : Context) (root : Node) :
    ∀ p ∈ builtinPasses, Polled (p.1.analyze c root) (p.2 c root / 512) := by
  simp only [builtinPasses, List.forall_mem_cons, List.not_mem_nil, false_implies, implies_true, and_true]
  exact ⟨complexity_polled c root, ofDrafts_polled _ _ _ c root, ofDrafts_polled _ _ _ c root,
    ofDrafts_polled _ _ _ c root⟩

/-- **A time budget changes what a built-in analyzer comes to only where it is spent.** -/
theorem builtin_sameOrSpent (c : Context) (root : Node) :
    ∀ x ∈ Registry.builtin.analyzers, Syntax.SameOrSpent (x.analyze c root) := by
  simp only [Registry.builtin, Registry.builtinAnalyzers, List.forall_mem_cons, List.not_mem_nil, false_implies,
    implies_true, and_true]
  exact ⟨complexity_sameOrSpent c root, ofDrafts_sameOrSpent _ _ _ c root, ofDrafts_sameOrSpent _ _ _ c root,
    ofDrafts_sameOrSpent _ _ _ c root⟩

theorem builtin_untimed : ∀ p ∈ builtinPasses, p.1.Untimed := by
  simp only [builtinPasses, List.forall_mem_cons, List.not_mem_nil, false_implies, implies_true, and_true]
  exact ⟨complexity_untimed, ofDrafts_untimed _ _ _, ofDrafts_untimed _ _ _, ofDrafts_untimed _ _ _⟩

theorem builtin_timely : ∀ x ∈ Registry.builtin.analyzers, x.Timely := fun x hx c root => by
  obtain ⟨p, hp, rfl⟩ := List.mem_map.1 (show x ∈ builtinPasses.map (·.1) from hx)
  exact (builtin_polled c root p hp).timely

end Analyzer
end CodeReview
