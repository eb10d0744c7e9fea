import CodeReview.Proofs.Analyzer.Fitting
import CodeReview.Proofs.Run.Produced
/-!
# Disabled rules

Without a time budget a built-in analyzer finds what its checks say (`Gathers`), so the findings of a file are those of
the checks whose rules are enabled.  To disable a rule deletes its findings and changes nothing else, and so it is with a
group of rules (`disabling_deletes`).
-/
namespace CodeReview.Run
namespace FileAnalyzer

open Analyzer (Pass checkedPasses)
open Grammar (Session)
open Syntax (Budgeted)

variable {a : FileAnalyzer} {c : Context} {root : Syntax.Node}

/-! ## What the passes gather -/

/-- The findings that a pass adds to those of a file: those of its checks, if its analyzer is for the language. -/
def Gathers (c : Context) (root : Syntax.Node) (p : Pass) (fs : List Finding) : Prop :=
  c.findings p.analyzer.name (if p.analyzer.speaks c.language = true then p.drafts c.rules root else []) = .ok fs

theorem gathers_total {p : Pass} (hp : p.Fits c.rules) (root : Syntax.Node) : ∃ fs, Gathers c root p fs := by
  unfold Gathers
  split
  · exact Pass.findings_total hp root
  · exact ⟨[], rfl⟩

/-- **A pass adds the findings of its checks**, whether its analyzer applies or has nothing to apply. -/
theorem passOf_gathers {p : Pass} {q : Passes} {fs : List Finding} (hp : p.Fits c.rules) (hq : q.spent = none)
    (h : Gathers c root p fs) :
    passOf c root q p.analyzer none = (.ok { q with findings := q.findings ++ fs, deadline := none }, none) := by
  unfold Gathers at h
  cases ha : p.analyzer.applies c with
  | true =>
    have hspeaks : p.analyzer.speaks c.language = true := (Bool.and_eq_true_iff.1 ha).1
    have hfinds : p.analyzer.analyze c root none = (.ok fs, none) := by
      rw [if_pos hspeaks] at h
      rw [p.analyze_none]
      exact congrArg (fun out => (out, none)) h
    rw [passOf_of_applies hq ha]
    dsimp only
    rw [hfinds]
    rfl
  | false =>
    -- the analyzer is left out if all its rules are disabled, but then none of its checks reports anything
    have hfs : fs = [] := by
      split at h
      · rename_i hspeaks
        rw [Pass.drafts_of_not_applies hp hspeaks ha] at h
        cases h
        rfl
      · cases h
        rfl
    rw [passOf_of_not_applies hq ha, hfs, List.append_nil]
    rfl

/-- **Without a time budget passes one after the other come to the findings of all checks.** -/
theorem passesOf_gathers {ps : List Pass} {fss : List (List Finding)} (h : List.Forall₂ (Gathers c root) ps fss) :
    ∀ q : Passes, q.spent = none → (∀ p ∈ ps, p.Fits c.rules) →
    ∃ q', passesOf c root (ps.map (·.analyzer)) q none = (.ok q', none) ∧ q'.spent = none ∧
      q'.findings = q.findings ++ fss.flatten ∧ q'.errors = q.errors := by
  induction h with
  | nil =>
    intro q hq _
    rw [List.map_nil, passesOf_nil hq]
    exact ⟨q.under none, rfl, hq, (List.append_nil _).symm, rfl⟩
  | @cons p fs ps fss hp _ ih =>
    intro q hq hps
    obtain ⟨q', hq', hspent, hfindings, herrors⟩ :=
      ih { q with findings := q.findings ++ fs, deadline := none } hq fun p' hp' => hps p' (by simp [hp'])
    refine ⟨q', ?_, hspent, ?_, herrors⟩
    · rw [List.map_cons, passesOf_cons, Budgeted.andThen, passOf_gathers (hps p (by simp)) hq hp]
      exact hq'
    · rw [hfindings, List.flatten_cons, List.append_assoc]

theorem forall₂_gathers (root : Syntax.Node) : ∀ (ps : List Pass), (∀ p ∈ ps, p.Fits c.rules) →
    ∃ fss, List.Forall₂ (Gathers c root) ps fss
  | [], _ => ⟨[], .nil⟩
  | p :: ps, h => by
    obtain ⟨fs, hfs⟩ := gathers_total (h p (by simp)) root
    obtain ⟨fss, hfss⟩ := forall₂_gathers root ps fun p' hp' => h p' (by simp [hp'])
    exact ⟨fs :: fss, .cons hfs hfss⟩

/-- **Without some rules a pass gathers what it gathers otherwise**, but for the findings of these rules. -/
theorem Gathers.without {p : Pass} {fs : List Finding} (h : Gathers c root p fs) (q : Rule → Bool) :
    Gathers { c with rules := c.rules.without q } root p (fs.filter fun f => !c.rules.names q f.rule.id) := by
  unfold Gathers at h ⊢
  split at h
  · rename_i hspeaks
    rw [if_pos hspeaks, p.drafts_without]
    exact Analyzer.findings_without q _ fs h
  · rename_i hspeaks
    cases h
    rw [if_neg hspeaks]
    rfl

theorem forall₂_without {ps : List Pass} {fss : List (List Finding)} (h : List.Forall₂ (Gathers c root) ps fss)
    (q : Rule → Bool) :
    List.Forall₂ (Gathers { c with rules := c.rules.without q } root) ps
      (fss.map (List.filter fun f => !c.rules.names q f.rule.id)) := by
  induction h with
  | nil => exact .nil
  | cons hp _ ih => exact .cons (hp.without q) ih

/-! ## Findings aside from their identifiers -/

theorem numbered_erased (path : String) {p : Finding → Bool} (hp : ∀ f id, p (f.withId id) = p f) :
    ∀ (fs : List Finding) (k : Nat),
    (((fs.zipIdx k).map fun f => f.1.withId (numberedId path f.1 f.2)).filter p).map (·.withId "") =
      (fs.filter p).map (·.withId "")
  | [], _ => rfl
  | f :: fs, k => by
    have ih := numbered_erased path hp fs (k + 1)
    rw [List.zipIdx_cons, List.map_cons, List.filter_cons, List.filter_cons, hp]
    cases p f with
    | false => exact ih
    | true =>
      rw [if_pos rfl, if_pos rfl, List.map_cons, List.map_cons, ih]
      rfl

theorem number_erased (path : String) (fs : List Finding) : (number path fs).map (·.withId "") = fs.map (·.withId "") := by
  have h := numbered_erased path (p := fun _ => true) (fun _ _ => rfl) fs 1
  rwa [List.filter_true, List.filter_true] at h

/-- **To filter what is reported is to report what is filtered**, aside from identifiers. -/
theorem finish_filter (path : String) (gone : String → Bool) (fs : List Finding) :
    (a.finish path (fs.filter fun f => !gone f.rule.id)).map (·.withId "") =
      ((a.finish path fs).filter fun f => !gone f.rule.id).map (·.withId "") := by
  -- identifiers count the findings, so they are erased on both sides before the filters can change places
  have hsome := numbered_erased path (p := fun f => !gone f.rule.id) (fun _ _ => rfl) (fs.filter a.keeps) 1
  rw [finish, finish, number_erased]
  refine Eq.trans ?_ hsome.symm
  rw [List.filter_filter, List.filter_filter]
  simp only [Bool.and_comm]

/-- That a result is another one without some of its findings, aside from the identifiers of those that are left. -/
structure Loses (r r' : FileResult) (gone : String → Bool) : Prop where
  rest : r' = { r with findings := r'.findings }
  findings : r'.findings.map (·.withId "") = (r.findings.filter fun f => !gone f.rule.id).map (·.withId "")

/-! ## Files -/

section

variable {q : Rule → Bool} (hq : a.rules.names q parseErrorId = false)

include hq

theorem unparsed_loses (path language : String) (lines : Nat) (message : String) (timedOut : Bool) :
    Loses (a.unparsed path language lines message timedOut)
      (({ a with rules := a.rules.without q } : FileAnalyzer).unparsed path language lines message timedOut)
      (a.rules.names q) := by
  have hrule : ({ a with rules := a.rules.without q } : FileAnalyzer).unparsedRule = a.unparsedRule := by
    rw [unparsedRule, unparsedRule, RuleSet.find?_without_of_not_names hq]
  have hsame : ({ a with rules := a.rules.without q } : FileAnalyzer).unparsed path language lines message timedOut =
      a.unparsed path language lines message timedOut := by
    rw [unparsed, unparsed, unparsedFinding, unparsedFinding, hrule]
    rfl
  have hkept : (a.unparsed path language lines message timedOut).findings.filter (fun f => !a.rules.names q f.rule.id) =
      (a.unparsed path language lines message timedOut).findings := by
    rw [unparsed_findings]
    refine List.filter_eq_self.2 fun f hf => ?_
    rw [List.mem_singleton.1 hf]
    show (!a.rules.names q parseErrorId) = true
    rw [hq]
    rfl
  rw [hsame]
  exact ⟨rfl, by rw [hkept]⟩

/-- **A file with a tree loses the findings of the rules that are disabled.** -/
theorem report_loses (hb : a.registry = .builtin) (hfits : ∀ p ∈ checkedPasses, p.Fits a.rules)
    (path language : String) (lines : Nat) (root : Syntax.Node) :
    Loses (a.report path language lines (a.fileOf path language lines root none).1)
      (({ a with rules := a.rules.without q } : FileAnalyzer).report path language lines
        (({ a with rules := a.rules.without q } : FileAnalyzer).fileOf path language lines root none).1)
      (a.rules.names q) := by
  let c : Context := ⟨path, language, a.rules⟩
  have hpasses : a.registry.analyzers = checkedPasses.map (·.analyzer) := by rw [hb, Analyzer.checkedPasses_analyzers]
  obtain ⟨fss, hfss⟩ := forall₂_gathers (c := c) root checkedPasses hfits
  obtain ⟨p, hp, hspent, hfindings, herrors⟩ :=
    passesOf_gathers hfss { deadline := none } rfl hfits
  obtain ⟨p', hp', hspent', hfindings', herrors'⟩ :=
    passesOf_gathers (forall₂_without hfss q) { deadline := none } rfl fun p hp => (hfits p hp).without q
  have hfilter : p'.findings = p.findings.filter fun f => !a.rules.names q f.rule.id := by
    rw [hfindings', hfindings, List.filter_append, List.filter_flatten]
    rfl
  have hsame : p'.errors = p.errors := herrors'.trans herrors.symm
  have hfile : (a.fileOf path language lines root none).1 = measured path lines p (a.collect root lines none).1 := by
    rw [fileOf, hpasses, Budgeted.andThen, hp]
    dsimp only
    rw [measureOf_of_unspent a path root lines hspent]
  have hfile' : (({ a with rules := a.rules.without q } : FileAnalyzer).fileOf path language lines root none).1 =
      measured path lines p' (a.collect root lines none).1 := by
    rw [fileOf, hpasses, Budgeted.andThen, hp']
    dsimp only
    rw [measureOf_of_unspent _ path root lines hspent']
  have hfinish : (a.finish path p'.findings).map (·.withId "") =
      ((a.finish path p.findings).filter fun f => !a.rules.names q f.rule.id).map (·.withId "") := by
    rw [hfilter, finish_filter]
  rw [hfile, hfile']
  -- metrics are collected of the tree, so they are the same; only a timeout of them replaces the findings
  cases (a.collect root lines none).1 with
  | ok m => exact ⟨congrArg (fun es => FileResult.mk _ _ _ _ es _ _) hsame, hfinish⟩
  | error why =>
    rw [measured, measured]
    cases why.isTimeout with
    | true => exact unparsed_loses hq path language lines why.message true
    | false => exact ⟨congrArg (fun es => FileResult.mk _ _ _ _ (es ++ _) _ _) hsame, hfinish⟩

theorem parseFailed_loses (path language : String) (lines : Nat) (e : Grammar.ParseError) :
    Loses (a.parseFailed path language lines e).1
      (({ a with rules := a.rules.without q } : FileAnalyzer).parseFailed path language lines e).1 (a.rules.names q) := by
  rw [parseFailed_eq, parseFailed_eq]
  exact unparsed_loses hq path language lines e.message e.isTimeout

/-- **A file loses the findings of the rules that are disabled**, and nothing else. -/
theorem analyze_loses (hb : a.registry = .builtin) (hfits : ∀ p ∈ checkedPasses, p.Fits a.rules)
    (ht : a.budget = .ok none) (hp : ∀ session path text language, (a.parse session path text language none).2 = none)
    (session : Session) (path text : String) (given : Option String) {r : Analyzed}
    (hr : a.analyze session path text given = .ok r) :
    ∃ r', ({ a with rules := a.rules.without q } : FileAnalyzer).analyze session path text given = .ok r' ∧
      Loses r.result r'.result (a.rules.names q) := by
  cases hl : languageOf path given with
  | none =>
    rw [analyze, hl] at hr
    cases hr
    exact ⟨_, by rw [analyze, hl], rfl, rfl⟩
  | some language =>
    rw [analyze_of_budget hl ht] at hr
    cases hr
    have ht' : ({ a with rules := a.rules.without q } : FileAnalyzer).budget = .ok none := ht
    refine ⟨_, analyze_of_budget hl ht' session text, ?_⟩
    have hparse : ({ a with rules := a.rules.without q } : FileAnalyzer).parse = a.parse := rfl
    rw [analyzeWithin_result, analyzeWithin_result, hparse]
    cases (a.parse session path text language none).1.outcome with
    | error e => exact parseFailed_loses hq path language _ e
    | ok root =>
      dsimp only
      rw [hp session path text language]
      exact report_loses hq hb hfits path language _ root

end

/-- **To disable a rule deletes its findings and changes nothing else.**  Under the built-in rules with any overrides, any
rule but that of files without a tree can be disabled by an override, and then a file is reported as before, but for the
findings of the rule; and to disable a group of rules deletes the findings of the rules of the group. -/
theorem disabling_deletes (a : FileAnalyzer) (overrides : Entries Value) (session : Session) (path text : String)
    (given : Option String) (hrules : RuleSet.builtin.withOverrides overrides = .ok a.rules)
    (hb : a.registry = .builtin) (ht : a.budget = .ok none)
    (hp : ∀ session path text language, (a.parse session path text language none).2 = none) :
    ∃ r, a.analyze session path text given = .ok r ∧
      (∀ id ∈ a.rules.ids, id ≠ parseErrorId →
        ∃ R r', a.rules.withOverrides [(id, .bool false)] = .ok R ∧
          ({ a with rules := R } : FileAnalyzer).analyze session path text given = .ok r' ∧
          Loses r.result r'.result fun rule => rule == id) ∧
      ∀ group ∈ a.rules.groups,
        ∃ R r', a.rules.withOverrides [(group, .bool false)] = .ok R ∧
          ({ a with rules := R } : FileAnalyzer).analyze session path text given = .ok r' ∧
          Loses r.result r'.result fun rule => (a.rules.find? rule).any fun r => r.analyzer == group := by
  have hfits := Analyzer.fits_of_overrides hrules
  obtain ⟨r, hr⟩ : ∃ r, a.analyze session path text given = .ok r := by
    cases hl : languageOf path given with
    | none => exact ⟨_, by rw [analyze, hl]⟩
    | some language => exact ⟨_, analyze_of_budget hl ht session text⟩
  refine ⟨r, hr, fun id hid hne => ?_, fun group hgroup => ?_⟩
  · have hq : a.rules.names (fun r => r.id == id) parseErrorId = false := by
      rw [RuleSet.names_id hid]
      exact beq_eq_false_iff_ne.2 (Ne.symm hne)
    obtain ⟨r', hr', hloses⟩ := analyze_loses hq hb hfits ht hp session path text given hr
    have hnames : a.rules.names (fun r => r.id == id) = fun rule => rule == id := funext (RuleSet.names_id hid)
    rw [hnames] at hloses
    exact ⟨_, r', RuleSet.disable_rule hid hne, hr', hloses⟩
  · have hq : a.rules.names (fun r => r.analyzer == group) parseErrorId = false := by
      refine RuleSet.names_parseError hrules fun r _ hengine => ?_
      have hne : (group != engineGroup) = true := (List.mem_filter.1 hgroup).2
      rw [hengine]
      exact beq_eq_false_iff_ne.2 (Ne.symm (bne_iff_ne.1 hne))
    obtain ⟨r', hr', hloses⟩ := analyze_loses hq hb hfits ht hp session path text given hr
    exact ⟨_, r', RuleSet.disable_builtin_group hrules hgroup, hr', hloses⟩

def evalTree : Syntax.Node := .mk ⟨.call, "call_expression", 1, 1, 1, 10, some "eval", none, none⟩ none []

def evalFile : FileAnalyzer where
  parse := fun session _ _ _ deadline => (⟨.ok evalTree, session, []⟩, deadline)
  timeout := none

/-- The only finding of such a file is deleted with its rule. -/
theorem eval_disabled : ∃ r R r', evalFile.analyze {} "a.js" "eval('1')" none = .ok r ∧
    RuleSet.builtin.withOverrides [("no-eval", .bool false)] = .ok R ∧
    ({ evalFile with rules := R } : FileAnalyzer).analyze {} "a.js" "eval('1')" none = .ok r' ∧
    r.result.findings.length = 1 ∧ r'.result.findings = [] := by
  have hnone : ∀ session path text language, (evalFile.parse session path text language none).2 = none :=
    fun _ _ _ _ => rfl
  obtain ⟨r, hr, hrule, -⟩ :=
    disabling_deletes evalFile [] {} "a.js" "eval('1')" none rfl rfl rfl hnone
  obtain ⟨R, r', hR, hr', hloses⟩ := hrule "no-eval" (by decide +kernel) (by decide)
  have hfound : ((evalFile.analyze {} "a.js" "eval('1')" none).toOption.map fun r =>
      r.result.findings.map fun f => f.rule.id) = some ["no-eval"] := by
    decide +kernel
  rw [hr] at hfound
  have hids : r.result.findings.map (fun f => f.rule.id) = ["no-eval"] := Option.some.inj hfound
  refine ⟨r, R, r', hr, hR, hr', ?_, ?_⟩
  · have hlength := congrArg List.length hids
    rwa [List.length_map] at hlength
  · have hgone : (r.result.findings.filter fun f => !(f.rule.id == "no-eval")) = [] := by
      refine List.filter_eq_nil_iff.2 fun f hf => ?_
      have hid : f.rule.id ∈ ["no-eval"] := hids ▸ List.mem_map_of_mem hf
      rw [List.mem_singleton.1 hid]
      decide
    have hfindings := hloses.findings
    rw [hgone] at hfindings
    exact List.map_eq_nil_iff.1 hfindings

end FileAnalyzer
end CodeReview.Run
