import CodeReview.Proofs.Analyzer.Fitting
import CodeReview.Proofs.Syntax.Order
import Mathlib.Data.List.Forall2
/-!
# What drafts make

Where each draft is about an enabled rule of its group, an analyzer finds what its drafts make one by one (`findings_made`).
So the findings of lists of drafts are put together as the lists are, and the findings under one rule are made by the drafts
under it (`made_filter`).
-/
namespace CodeReview

open Syntax (Node)

theorem forall₂_flatMap {α β γ : Type} {T : β → γ → Prop} {f : α → List β} {g : α → List γ} : ∀ {xs : List α},
    (∀ x ∈ xs, List.Forall₂ T (f x) (g x)) → List.Forall₂ T (xs.flatMap f) (xs.flatMap g)
  | [], _ => .nil
  | x :: xs, h => by
    rw [List.flatMap_cons, List.flatMap_cons]
    exact List.rel_append (h x (List.mem_cons_self ..)) (forall₂_flatMap fun y hy => h y (List.mem_cons_of_mem x hy))

/-- What is made at those places of a list only that have a property. -/
theorem forall₂_filter {α β : Type} {T : α → β → Prop} {p : α → Bool} {g : α → List β} : ∀ {xs : List α},
    (∀ x ∈ xs, if p x = true then ∃ y, g x = [y] ∧ T x y else g x = []) → List.Forall₂ T (xs.filter p) (xs.flatMap g)
  | [], _ => .nil
  | x :: xs, h => by
    have hrest := forall₂_filter fun y hy => h y (List.mem_cons_of_mem x hy)
    have hx := h x (List.mem_cons_self ..)
    rw [List.filter_cons, List.flatMap_cons]
    by_cases hp : p x = true
    · rw [if_pos hp] at hx ⊢
      obtain ⟨y, hy, hT⟩ := hx
      rw [hy]
      exact .cons hT hrest
    · rw [if_neg hp] at hx ⊢
      rw [hx]
      exact hrest

/-- The findings of drafts, those left out that make none. -/
def Context.made (c : Context) (group : String) (ds : List Draft) : List Finding :=
  ds.filterMap fun d => (c.finding group d).toOption

namespace Analyzer

variable {c : Context} {group : String}

theorem made_append (ds es : List Draft) : c.made group (ds ++ es) = c.made group ds ++ c.made group es :=
  List.filterMap_append

theorem made_flatMap {α : Type} (g : α → List Draft) (xs : List α) :
    c.made group (xs.flatMap g) = xs.flatMap fun x => c.made group (g x) := List.filterMap_flatMap

theorem made_singleton {d : Draft} {f : Finding} (h : c.finding group d = .ok f) : c.made group [d] = [f] := by
  rw [Context.made, List.filterMap_cons, h]
  rfl

theorem made_cons {d : Draft} {f : Finding} (h : c.finding group d = .ok f) (ds : List Draft) :
    c.made group (d :: ds) = f :: c.made group ds := by
  rw [← List.singleton_append, made_append, made_singleton h]
  rfl

theorem made_cons_of_error {d : Draft} {e : Failure} (h : c.finding group d = .error e) (ds : List Draft) :
    c.made group (d :: ds) = c.made group ds := by
  rw [Context.made, List.filterMap_cons, h]
  rfl

theorem forall₂_made {α : Type} {S : α → Draft → Prop} {T : α → Finding → Prop} {xs : List α} {ds : List Draft}
    (h : List.Forall₂ S xs ds) (hmade : ∀ x d, S x d → ∃ f, c.finding group d = .ok f ∧ T x f) :
    List.Forall₂ T xs (c.made group ds) := by
  induction h with
  | nil => exact .nil
  | cons hxd _ ih =>
    obtain ⟨f, hf, hT⟩ := hmade _ _ hxd
    rw [made_cons hf]
    exact .cons hT ih

theorem made_filter (p : String → Bool) (ds : List Draft) :
    (c.made group ds).filter (fun f => p f.rule.id) = c.made group (ds.filter fun d => p d.rule) := by
  induction ds with
  | nil => rfl
  | cons d ds ih =>
    cases hd : c.finding group d with
    | error e =>
      rw [made_cons_of_error hd, ih, List.filter_cons]
      split
      · rw [made_cons_of_error hd]
      · rfl
    | ok f =>
      have hrule : f.rule.id = d.rule := finding_rule hd
      rw [made_cons hd, List.filter_cons, List.filter_cons, hrule, ih]
      split
      · rw [made_cons hd]
      · rfl

theorem finding_tells {d : Draft} {f : Finding} (h : c.finding group d = .ok f) :
    f.severity = d.severity ∧ f.title = d.title ∧ f.description = d.description ∧
      f.location = { path := c.path, line := d.line, column := d.column } := by
  unfold Context.finding at h
  split at h
  · cases h
  · split at h
    · cases h
    · cases h
      exact ⟨rfl, rfl, rfl, rfl⟩

theorem exists_finding {d : Draft} (h : (c.rules.enabledIn? group d.rule).isSome = true) (hid : d.rule ≠ "") :
    ∃ f, c.finding group d = .ok f := by
  obtain ⟨r, hr⟩ := Option.isSome_iff_exists.1 h
  have hrule : r.id = d.rule := RuleSet.find?_id (find?_of_enabledIn hr)
  have href : r.ref = .ok ⟨r.id, r.name, r.category, r.documentation, hrule ▸ hid⟩ := dif_neg (hrule ▸ hid)
  rw [Context.finding, hr]
  dsimp only
  rw [href]
  exact ⟨_, rfl⟩

/-- **Findings are what drafts make**, if each draft makes one. -/
theorem findings_made {ds : List Draft} (h : ∀ d ∈ ds, ∃ f, c.finding group d = .ok f) :
    c.findings group ds = .ok (c.made group ds) := by
  induction ds with
  | nil => rfl
  | cons d ds ih =>
    obtain ⟨f, hf⟩ := h d (List.mem_cons_self ..)
    have hrest := ih fun e he => h e (List.mem_cons_of_mem d he)
    rw [findings_cons, hf, hrest, made_cons hf]
    rfl

theorem ofDrafts_analyze_none (name : String) (languages : Option (List String)) (drafts : RuleSet → Node → List Draft)
    (c : Context) (root : Node) : (ofDrafts name languages drafts).analyze c root none =
      (c.findings name (root.nodes.flatMap (drafts c.rules)), none) := by
  dsimp only [ofDrafts]
  rw [Syntax.Walk.collect_none, findings_flatMap, Node.nodes, List.flatMap_map]

section

variable {drafts : RuleSet → Node → List Draft} {ks : List Check}

/-- **A pass of checks finds what its drafts make**, if the rules that are enabled are in its group. -/
theorem ofDrafts_made (hdrafts : ∀ R n, drafts R n = ks.flatMap fun k => k.drafts R n) (languages : Option (List String))
    (hgroup : ∀ k ∈ ks, c.rules.isEnabled k.rule = true → (c.rules.enabledIn? group k.rule).isSome = true ∧ k.rule ≠ "")
    (root : Node) : (ofDrafts group languages drafts).analyze c root none =
      (.ok (c.made group (root.nodes.flatMap (drafts c.rules))), none) := by
  have hall : ∀ d ∈ root.nodes.flatMap (drafts c.rules), ∃ f, c.finding group d = .ok f := by
    intro d hd
    obtain ⟨n, -, hd⟩ := List.mem_flatMap.1 hd
    rw [hdrafts] at hd
    obtain ⟨k, hk, hd⟩ := List.mem_flatMap.1 hd
    obtain ⟨hrule, hon⟩ := Check.drafts_rule hd
    obtain ⟨hisSome, hid⟩ := hgroup k hk hon
    exact exists_finding (hrule ▸ hisSome) (hrule ▸ hid)
  rw [ofDrafts_analyze_none, findings_made hall]

theorem filter_checks {k₁ k₂ : Check} (h : k₁.rule ≠ k₂.rule) (R : RuleSet) (n : Node) :
    ([k₁, k₂].flatMap fun k => k.drafts R n).filter (fun d => d.rule == k₁.rule) = k₁.drafts R n := by
  have hfirst : (k₁.drafts R n).filter (fun d => d.rule == k₁.rule) = k₁.drafts R n :=
    List.filter_eq_self.2 fun d hd => beq_iff_eq.2 (Check.drafts_rule hd).1
  have hsecond : (k₂.drafts R n).filter (fun d => d.rule == k₁.rule) = [] :=
    List.filter_eq_nil_iff.2 fun d hd heq => h ((beq_iff_eq.1 heq).symm.trans (Check.drafts_rule hd).1)
  rw [List.flatMap_cons, List.flatMap_singleton, List.filter_append, hfirst, hsecond, List.append_nil]

/-- What a pass of two checks finds under the rule of the first, place by place. -/
theorem made_of_first {k₁ k₂ : Check} (hdrafts : ∀ R n, drafts R n = [k₁, k₂].flatMap fun k => k.drafts R n)
    (h : k₁.rule ≠ k₂.rule) (root : Node) :
    (c.made group (root.nodes.flatMap (drafts c.rules))).filter (fun f => f.rule.id == k₁.rule) =
      root.paths.flatMap fun p => c.made group ((root.at? p).elim [] (k₁.drafts c.rules)) := by
  have hfirst : ∀ n, (drafts c.rules n).filter (fun d => d.rule == k₁.rule) = k₁.drafts c.rules n := by
    intro n
    rw [hdrafts]
    exact filter_checks h c.rules n
  rw [made_filter (· == k₁.rule), List.filter_flatMap, List.flatMap_congr fun n _ => hfirst n, Node.flatMap_nodes_eq,
    made_flatMap]

end

end Analyzer
end CodeReview
