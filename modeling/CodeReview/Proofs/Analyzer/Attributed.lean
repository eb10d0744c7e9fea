import CodeReview.Proofs.Analyzer.Fitting
/-!
# What findings say of their rules

A finding is made by the rule set in effect, and says of its rule what the set does (`finding_attributed`).  That holds of
all that a built-in analyzer yields, also where it fails in the end (`yields_attributed`).  With rules that fit, which the
built-in ones do under any overrides, it fails only where its time budget is spent (`analyze_fails`).
-/
namespace CodeReview
namespace Analyzer

open Syntax (Deadline Node)

/-- That a finding of a group is about an enabled rule of it, and says of it what the rule set does. -/
structure Attributed (c : Context) (group : String) (f : Finding) (r : Rule) : Prop where
  found : c.rules.find? f.rule.id = some r
  enabled : r.enabled = true
  group : r.analyzer = group
  category : f.category = r.category
  ref : r.ref = .ok f.rule
  weaknesses : Entries.get? f.metadata "cwe" = if r.weaknesses.isEmpty then none else some (.texts r.weaknesses)
  path : f.location.path = c.path
  state : f.state = .unresolved

theorem metadata_weaknesses (d : Draft) (r : Rule) :
    Entries.get? (d.metadata r) "cwe" = if r.weaknesses.isEmpty then none else some (.texts r.weaknesses) := by
  unfold Draft.metadata
  cases r.weaknesses.isEmpty with
  | true => cases d.tags.isEmpty <;> rfl
  | false => cases d.tags.isEmpty <;> rfl

/-- **A finding says of its rule what the rule set does.** -/
theorem finding_attributed {c : Context} {group : String} {d : Draft} {f : Finding} (h : c.finding group d = .ok f) :
    ∃ r, Attributed c group f r := by
  have hrule : f.rule.id = d.rule := finding_rule h
  unfold Context.finding at h
  split at h
  · cases h
  rename_i r hr
  split at h
  · cases h
  rename_i ref href
  have hfound : c.rules.find? d.rule = some r := find?_of_enabledIn hr
  have hfits : (r.enabled && r.analyzer == group) = true := (Option.filter_eq_some_iff.1 hr).2
  obtain ⟨henabled, hgroup⟩ := Bool.and_eq_true_iff.1 hfits
  refine ⟨r, ?_⟩
  rw [← hrule] at hfound
  cases h
  exact ⟨hfound, henabled, beq_iff_eq.1 hgroup, rfl, href, metadata_weaknesses d r, rfl, rfl⟩

theorem findings_attributed {c : Context} {group : String} {ds : List Draft} {fs : List Finding}
    (h : c.findings group ds = .ok fs) : ∀ f ∈ fs, ∃ r, Attributed c group f r := by
  intro f hf
  obtain ⟨d, -, hd⟩ := (findings_spec c group ds).1 fs h f hf
  exact finding_attributed hd

/-! ## What analyzers yield -/

/-- What a pass that makes drafts has yielded when it ends or fails. -/
def draftYields (name : String) (drafts : RuleSet → Node → List Draft) (c : Context) (root : Node)
    (dl : Option Deadline) : List Finding :=
  (Syntax.Walk.collect (fun v => c.findings name (drafts c.rules v.node)) root dl).state

/-- What the complexity pass has yielded when it ends or fails: it makes one finding at most, and that last. -/
def complexityYields (c : Context) (root : Node) (dl : Option Deadline) : List Finding :=
  match (complexity.analyze c root dl).1 with
  | .ok fs => fs
  | .error _ => []

def builtinYields : List (Analyzer × (Context → Node → Option Deadline → List Finding)) := [
  (complexity, complexityYields),
  (security, draftYields Security.group Security.drafts),
  (performance, draftYields Performance.group Performance.drafts),
  (bugs, draftYields Bugs.group Bugs.drafts)]

theorem builtinYields_map_fst : builtinYields.map (·.1) = Registry.builtin.analyzers := rfl

/-- That all an analyzer yields is what it has found, if it does not fail, and in any case attributed. -/
def YieldsAttributed (x : Analyzer) (yields : Context → Node → Option Deadline → List Finding) : Prop :=
  ∀ c root dl, (∀ fs, (x.analyze c root dl).1 = .ok fs → yields c root dl = fs) ∧
    ∀ f ∈ yields c root dl, ∃ r, Attributed c x.name f r

theorem draftYields_attributed (name : String) (languages : Option (List String))
    (drafts : RuleSet → Node → List Draft) :
    YieldsAttributed (ofDrafts name languages drafts) (draftYields name drafts) := by
  intro c root dl
  refine ⟨fun fs h => Syntax.Walk.collect_state_of_ok h, fun f hf => ?_⟩
  obtain ⟨v, -, new, hnew, hmem⟩ := Syntax.Walk.collect_state_mem _ root dl f hf
  exact findings_attributed hnew f hmem

theorem complexityYields_attributed : YieldsAttributed complexity complexityYields := by
  intro c root dl
  unfold complexityYields
  cases h : (complexity.analyze c root dl).1 with
  | error e => exact ⟨fun fs hfs => (by cases hfs), fun f hf => (by cases hf)⟩
  | ok fs =>
    refine ⟨fun gs hgs => Except.ok.inj hgs, ?_⟩
    cases hr : c.rules.isEnabled Complexity.rule with
    | false =>
      rw [complexity_of_disabled hr] at h
      cases h
      exact fun f hf => (by cases hf)
    | true =>
      rw [complexity_of_enabled hr] at h
      dsimp only at h
      cases hn : (Syntax.cyclomaticComplexity root dl).1 with
      | error e => rw [hn] at h; cases h
      | ok n =>
        rw [hn] at h
        exact findings_attributed h

/-- **All that a built-in analyzer yields is attributed**, whatever the rules. -/
theorem yields_attributed : ∀ x ∈ builtinYields, YieldsAttributed x.1 x.2 := by
  simp only [builtinYields, List.forall_mem_cons, List.not_mem_nil, false_implies, implies_true, and_true]
  exact ⟨complexityYields_attributed, draftYields_attributed _ _ _, draftYields_attributed _ _ _,
    draftYields_attributed _ _ _⟩

theorem builtin_attributed {x : Analyzer} (hx : x ∈ Registry.builtin.analyzers) {c : Context} {root : Node}
    {dl : Option Deadline} {fs : List Finding} (h : (x.analyze c root dl).1 = .ok fs) :
    ∀ f ∈ fs, ∃ r, Attributed c x.name f r := by
  rw [← builtinYields_map_fst] at hx
  obtain ⟨y, hy, rfl⟩ := List.mem_map.1 hx
  obtain ⟨hsame, hall⟩ := yields_attributed y hy c root dl
  rwa [hsame fs h] at hall

/-- Analyzers whose findings lie in the file of their context. -/
def Local (x : Analyzer) : Prop :=
  ∀ c root dl fs, (x.analyze c root dl).1 = .ok fs → ∀ f ∈ fs, f.location.path = c.path

theorem builtin_local : ∀ x ∈ Registry.builtin.analyzers, x.Local := fun x hx c root dl fs h f hf => by
  obtain ⟨r, hr⟩ := builtin_attributed hx h f hf
  exact hr.path

/-! ## Rules that fit -/

/-- **With rules that fit a built-in analyzer fails only where its time budget is spent.** -/
theorem analyze_fails {c : Context} (hfits : ∀ p ∈ checkedPasses, p.Fits c.rules) {x : Analyzer}
    (hx : x ∈ Registry.builtin.analyzers) {root : Node} {dl : Option Deadline} {e : Failure}
    (h : (x.analyze c root dl).1 = .error e) : ∃ d, dl = some d ∧ e = Syntax.spentFailure d.budget := by
  have hfree : ∃ fs, (x.analyze c root none).1 = .ok fs := by
    rw [← checkedPasses_analyzers] at hx
    obtain ⟨p, hp, rfl⟩ := List.mem_map.1 hx
    rw [p.analyze_none]
    exact Pass.findings_total (hfits p hp) root
  obtain ⟨fs, hfs⟩ := hfree
  rcases builtin_sameOrSpent c root x hx dl with hsame | ⟨d, hd, hspent⟩
  · rw [hsame, hfs] at h
    cases h
  · rw [hspent] at h
    exact ⟨d, hd, (Except.error.inj h).symm⟩

end Analyzer
end CodeReview
