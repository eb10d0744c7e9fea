import CodeReview.Proofs.Analyzer.Found
import CodeReview.Proofs.Analyzer.Placed
import CodeReview.Proofs.Syntax.LoopDepth
import CodeReview.Proofs.Number.Numerals
import Mathlib.Order.ConditionallyCompleteLattice.Basic
import Mathlib.Order.Lattice.Nat
/-!
# Nested loops

The performance pass tells of exactly the loops at which more levels start than the threshold allows, once each and in the
order of the tree (`made_loops`).  A loop around such a loop has more levels still, so it is told of as well
(`enclosing_deepLoops`).  A higher threshold takes away the findings that quote no more levels than it, and no others
(`made_limited`).
-/
namespace CodeReview.Analyzer.Performance

open Syntax (Node Label maxLoopDepth)

def levelsTitle (levels : Nat) : String := "Deeply nested loops (" ++ toString levels ++ " levels)"

/-- The number of levels that the title of a finding quotes. -/
noncomputable def quoted (f : Finding) : Nat := sInf {levels | f.title = levelsTitle levels}

theorem levelsTitle_injective {j k : Nat} (h : levelsTitle j = levelsTitle k) : j = k := by
  have hnumbers : toString j = toString k :=
    (String.append_right_inj _).1 ((String.append_left_inj " levels)").1 h)
  exact Number.toString_injective hnumbers

theorem quoted_eq {f : Finding} {levels : Nat} (h : f.title = levelsTitle levels) : quoted f = levels := by
  have hone : {k | f.title = levelsTitle k} = {levels} := by
    ext k
    rw [Set.mem_ofPred_eq, h, Set.mem_singleton_iff]
    exact ⟨fun hk => (levelsTitle_injective hk).symm, fun hk => congrArg levelsTitle hk.symm⟩
  rw [quoted, hone, csInf_singleton]

/-! ## Deep loops -/

/-- The places of the loops in a tree at which more than `limit` levels start, in the order of the tree. -/
def deepLoops (limit : Int) (root : Node) : List (List Nat) :=
  root.paths.filter fun p => (root.at? p).any fun n => n.label.isLoop && decide (limit < maxLoopDepth n)

theorem mem_deepLoops {limit : Int} {root : Node} {p : List Nat} :
    p ∈ deepLoops limit root ↔ ∃ n, root.at? p = some n ∧ n.label.isLoop = true ∧ limit < maxLoopDepth n := by
  rw [deepLoops, List.mem_filter, Node.mem_paths, Option.any_eq_true]
  constructor
  · rintro ⟨-, n, hn, hdeep⟩
    simp only [Bool.and_eq_true, decide_eq_true_eq] at hdeep
    exact ⟨n, hn, hdeep⟩
  · rintro ⟨n, hn, hdeep⟩
    exact ⟨by rw [hn]; rfl, n, hn, by simpa using hdeep⟩

theorem deepLoops_sorted (limit : Int) (root : Node) : (deepLoops limit root).Pairwise (· < ·) :=
  (Node.paths_sorted root).filter _

/-- **A loop around a loop has more levels.** -/
theorem maxLoopDepth_lt {root m n : Node} {q p : List Nat} (hq : root.at? q = some m) (hp : root.at? p = some n)
    (habove : q <+: p) (hne : q ≠ p) (hloop : m.label.isLoop = true) : maxLoopDepth n < maxLoopDepth m := by
  obtain ⟨rest, rfl⟩ := habove
  cases rest with
  | nil => exact absurd (List.append_nil q).symm hne
  | cons i rest =>
    rw [Node.at?_append, hq, Option.bind_some] at hp
    obtain ⟨c, hc, hn⟩ := Option.bind_eq_some_iff.1 hp
    have hchild := Syntax.maxLoopDepth_child_le (List.mem_of_getElem? hc)
    have hbelow := Syntax.maxLoopDepth_at?_le hn
    rw [if_pos hloop] at hchild
    omega

theorem enclosing_deepLoops {limit : Int} {root m n : Node} {q p : List Nat} (h : p ∈ deepLoops limit root)
    (hp : root.at? p = some n) (hq : root.at? q = some m) (habove : q <+: p) (hne : q ≠ p)
    (hloop : m.label.isLoop = true) : q ∈ deepLoops limit root ∧ maxLoopDepth n < maxLoopDepth m := by
  have hlt := maxLoopDepth_lt hq hp habove hne hloop
  obtain ⟨n', hn', -, hdeep⟩ := mem_deepLoops.1 h
  have hsame : n' = n := Option.some.inj (hn'.symm.trans hp)
  subst hsame
  exact ⟨mem_deepLoops.2 ⟨m, hq, hloop, by omega⟩, hlt⟩

theorem exists_deepLoop_iff {limit : Int} (hlimit : 0 ≤ limit) (root : Node) :
    (∃ p, p ∈ deepLoops limit root) ↔ limit < maxLoopDepth root := by
  constructor
  · rintro ⟨p, hp⟩
    obtain ⟨n, hn, -, hdeep⟩ := mem_deepLoops.1 hp
    have hle := Syntax.maxLoopDepth_at?_le hn
    omega
  · intro h
    obtain ⟨p, n, hn, hloop, hdepth⟩ := Syntax.exists_outermost (n := root) (by omega)
    exact ⟨p, mem_deepLoops.2 ⟨n, hn, hloop, by rw [hdepth]; exact h⟩⟩

/-! ## What is told of a loop -/

/-- That a finding tells of a loop in a file, with the number of levels that start at it. -/
structure TellsLevels (path : String) (n : Node) (f : Finding) : Prop where
  severity : f.severity = .medium
  title : f.title = levelsTitle (maxLoopDepth n)
  location : f.location = { path, line := n.label.line, column := n.label.column }

def loopDraft (n : Node) : Draft :=
  .at n.label loopRule .medium (levelsTitle (maxLoopDepth n)) "Deeply nested loops can cause performance issues." []

section

variable {R : RuleSet} (hon : R.isEnabled loopRule = true)

include hon

theorem loopCheck_drafts (n : Node) : loopCheck.drafts R n =
    if (n.label.isLoop && decide (R.threshold loopRule defaultDepth < maxLoopDepth n)) = true then [loopDraft n] else [] := by
  have htells : loopCheck.tells R n = if R.threshold loopRule defaultDepth < maxLoopDepth n then [loopDraft n] else [] := rfl
  have hlooks : loopCheck.looksAt n = n.label.isLoop := rfl
  rw [Check.drafts_of_enabled hon, hlooks, htells]
  cases n.label.isLoop <;> simp

end

/-! ## Findings -/

/-- That the rules of the pass are in its group, as far as they are enabled. -/
def Grouped (R : RuleSet) : Prop := ∀ id ∈ [loopRule, arrayRule], R.isEnabled id = true → (R.enabledIn? group id).isSome = true

theorem grouped_of_overrides {chain : List (Entries Value)} {R : RuleSet}
    (h : chain.foldlM RuleSet.withOverrides .builtin = .ok R) : Grouped R := by
  have hfits := fits_of_chain h
  simp only [checkedPasses, List.forall_mem_cons] at hfits
  obtain ⟨-, -, hfits, -⟩ := hfits
  intro id hid hon
  rcases List.mem_pair.1 hid with rfl | rfl
  · exact hfits.enabledIn? (k := loopCheck) (List.mem_cons_self ..) hon
  · exact hfits.enabledIn? (k := arrayCheck) (List.mem_cons_of_mem _ (List.mem_singleton_self _)) hon

section

variable {c : Context} (hgroup : Grouped c.rules)

include hgroup

theorem exists_loopFinding (hon : c.rules.isEnabled loopRule = true) (n : Node) :
    ∃ f, c.finding group (loopDraft n) = .ok f ∧ f.rule.id = loopRule ∧ TellsLevels c.path n f := by
  have hid : (loopDraft n).rule ≠ "" := show loopRule ≠ "" by decide
  obtain ⟨f, hf⟩ := exists_finding (d := loopDraft n) (hgroup loopRule (by simp) hon) hid
  obtain ⟨hseverity, htitle, -, hlocation⟩ := finding_tells hf
  exact ⟨f, hf, finding_rule hf, hseverity, htitle, hlocation⟩

/-- **The pass finds what its drafts make.** -/
theorem analyze_made (root : Node) :
    performance.analyze c root none = (.ok (c.made group (root.nodes.flatMap (drafts c.rules))), none) := by
  refine ofDrafts_made drafts_eq none (fun k hk hon => ?_) root
  have hid : k.rule ∈ [loopRule, arrayRule] := by
    rcases List.mem_pair.1 hk with rfl | rfl
    · exact List.mem_cons_self ..
    · exact List.mem_cons_of_mem _ (List.mem_singleton_self _)
  have hne : ∀ id ∈ [loopRule, arrayRule], id ≠ "" := by decide
  exact ⟨hgroup k.rule hid hon, hne k.rule hid⟩

theorem made_loops (hon : c.rules.isEnabled loopRule = true) (root : Node) :
    List.Forall₂ (fun p f => ∃ n, root.at? p = some n ∧ TellsLevels c.path n f)
      (deepLoops (c.rules.threshold loopRule defaultDepth) root)
      ((c.made group (root.nodes.flatMap (drafts c.rules))).filter fun f => f.rule.id == loopRule) := by
  have hfirst : loopCheck.rule ≠ arrayCheck.rule := by decide
  have hloops : (c.made group (root.nodes.flatMap (drafts c.rules))).filter (fun f => f.rule.id == loopRule) =
      root.paths.flatMap fun p => c.made group ((root.at? p).elim [] (loopCheck.drafts c.rules)) :=
    made_of_first drafts_eq hfirst root
  rw [hloops, deepLoops]
  refine forall₂_filter fun p _ => ?_
  cases hp : root.at? p with
  | none => rfl
  | some n =>
    obtain ⟨f, hf, -, htells⟩ := exists_loopFinding hgroup hon n
    rw [Option.any_some, Option.elim_some, loopCheck_drafts hon]
    split
    · exact ⟨f, made_singleton hf, n, rfl, htells⟩
    · rfl

end

/-! ## Another threshold -/

theorem enabledIn?_limited (s : RuleSet) (id : String) (limit : Int) (x : String) :
    (s.limited id limit).enabledIn? group x =
      (s.enabledIn? group x).map fun r => if r.id == id then { r with threshold := some limit } else r := by
  rw [RuleSet.enabledIn?, RuleSet.enabledIn?, RuleSet.find?_limited]
  cases s.find? x with
  | none => rfl
  | some r =>
    rw [Option.map_some, Option.filter_some, Option.filter_some]
    by_cases hid : (r.id == id) = true
    · simp only [if_pos hid]
      cases r.enabled && r.analyzer == group with
      | true => simp only [if_true, Option.map_some, if_pos hid]
      | false => rfl
    · simp only [if_neg hid]
      cases r.enabled && r.analyzer == group with
      | true => simp only [if_true, Option.map_some, if_neg hid]
      | false => rfl

theorem Grouped.limited {R : RuleSet} (h : Grouped R) (id : String) (limit : Int) : Grouped (R.limited id limit) := by
  intro x hx hon
  rw [RuleSet.isEnabled_limited] at hon
  rw [enabledIn?_limited, Option.isSome_map]
  exact h x hx hon

/-- Of its rule a finding says nothing that a threshold could change. -/
theorem finding_limited (c : Context) (id : String) (limit : Int) (d : Draft) :
    ({ c with rules := c.rules.limited id limit } : Context).finding group d = c.finding group d := by
  rw [Context.finding, Context.finding, enabledIn?_limited]
  cases c.rules.enabledIn? group d.rule with
  | none => rfl
  | some r =>
    rw [Option.map_some]
    by_cases hid : (r.id == id) = true
    · simp only [if_pos hid]
      rfl
    · simp only [if_neg hid]

section

variable {c : Context} (hgroup : Grouped c.rules) (hon : c.rules.isEnabled loopRule = true)

include hgroup hon

omit hgroup in
theorem drafts_limited (limit : Int) (n : Node) : drafts (c.rules.limited loopRule limit) n =
    (if (n.label.isLoop && decide (limit < maxLoopDepth n)) = true then [loopDraft n] else []) ++
      arrayCheck.drafts c.rules n := by
  obtain ⟨r, hr⟩ := RuleSet.exists_of_isEnabled hon
  have honLimited : (c.rules.limited loopRule limit).isEnabled loopRule = true := by rw [RuleSet.isEnabled_limited, hon]
  have hlimit := RuleSet.threshold_limited hr limit defaultDepth
  have harray : arrayCheck.drafts (c.rules.limited loopRule limit) n = arrayCheck.drafts c.rules n := by
    have hother : arrayRule ≠ loopRule := by decide
    have hsame := arrayCheck.tells_congr _ _ (RuleSet.threshold_limited_of_ne hother c.rules limit) n
    rw [Check.drafts, Check.drafts, RuleSet.isEnabled_limited, hsame]
  rw [drafts_eq, List.flatMap_cons, List.flatMap_singleton, loopCheck_drafts honLimited, hlimit, harray]

/-- **A higher threshold takes away the findings that quote no more levels than it**, and no others. -/
theorem made_limited {limit : Int} (hle : c.rules.threshold loopRule defaultDepth ≤ limit) (n : Node) :
    ({ c with rules := c.rules.limited loopRule limit } : Context).made group (drafts (c.rules.limited loopRule limit) n) =
      (c.made group (drafts c.rules n)).filter fun f => f.rule.id != loopRule || decide (limit < quoted f) := by
  have hmade : ∀ ds, ({ c with rules := c.rules.limited loopRule limit } : Context).made group ds = c.made group ds := by
    intro ds
    exact congrArg (fun g => ds.filterMap fun d => (g d).toOption) (funext (finding_limited c loopRule limit))
  have harrays : (c.made group (arrayCheck.drafts c.rules n)).filter
      (fun f => f.rule.id != loopRule || decide (limit < quoted f)) = c.made group (arrayCheck.drafts c.rules n) := by
    refine List.filter_eq_self.2 fun f hf => ?_
    obtain ⟨d, hd, hmk⟩ := List.mem_filterMap.1 hf
    cases hfd : c.finding group d with
    | error e => rw [hfd] at hmk; cases hmk
    | ok f' =>
      rw [hfd] at hmk
      cases hmk
      have hrule : f.rule.id = arrayRule := (finding_rule hfd).trans (Check.drafts_rule hd).1
      rw [hrule]
      rfl
  have hsplit : c.made group (drafts c.rules n) =
      c.made group (loopCheck.drafts c.rules n) ++ c.made group (arrayCheck.drafts c.rules n) := by
    rw [drafts_eq, List.flatMap_cons, List.flatMap_singleton, made_append]
  rw [hmade, drafts_limited hon, hsplit, made_append, List.filter_append, harrays]
  refine congrArg (· ++ c.made group (arrayCheck.drafts c.rules n)) ?_
  -- what is left is the one finding that the node can have as a loop
  obtain ⟨f, hf, hrule, htells⟩ := exists_loopFinding hgroup hon n
  have hquoted : quoted f = maxLoopDepth n := quoted_eq htells.title
  have hkept : (f.rule.id != loopRule || decide (limit < quoted f)) = decide (limit < maxLoopDepth n) := by
    rw [hrule, hquoted, bne_self_eq_false, Bool.false_or]
  rw [loopCheck_drafts hon]
  by_cases hdeep : limit < maxLoopDepth n
  · have hdeeper : c.rules.threshold loopRule defaultDepth < maxLoopDepth n := by omega
    simp only [hdeep, hdeeper, decide_true, Bool.and_true]
    split
    · rw [made_singleton hf, List.filter_singleton, hkept, decide_eq_true hdeep]
      rfl
    · rfl
  · simp only [hdeep, decide_false, Bool.and_false, Bool.false_eq_true, if_false]
    split
    · rw [made_singleton hf, List.filter_singleton, hkept, decide_eq_false hdeep]
      rfl
    · rfl

end

/-! ## The findings of nested loops -/

/-- What is reported of the loops of a tree: which of them, at which places, and how that depends on the levels. -/
structure ReportsLoops (path : String) (root : Node) (limit : Int) (fs : List Finding) (places : List (List Nat)) : Prop where
  mem_iff : ∀ p, p ∈ places ↔ ∃ n, root.at? p = some n ∧ n.label.isLoop = true ∧ limit < maxLoopDepth n
  sorted : places.Pairwise (· < ·)
  told : List.Forall₂ (fun p f => ∃ n, root.at? p = some n ∧ TellsLevels path n f) places
    (fs.filter fun f => f.rule.id == loopRule)
  enclosing : ∀ p ∈ places, ∀ q m n, root.at? p = some n → root.at? q = some m → q <+: p → q ≠ p →
    m.label.isLoop = true → q ∈ places ∧ maxLoopDepth n < maxLoopDepth m
  exists_iff : (∃ f ∈ fs, f.rule.id = loopRule) ↔ limit < maxLoopDepth root

theorem made_reportsLoops {c : Context} (hgroup : Grouped c.rules) (hon : c.rules.isEnabled loopRule = true)
    (hlimit : 0 ≤ c.rules.threshold loopRule defaultDepth) (root : Node) :
    let limit := c.rules.threshold loopRule defaultDepth
    ReportsLoops c.path root limit (c.made group (root.nodes.flatMap (drafts c.rules))) (deepLoops limit root) := by
  intro limit
  have htold := made_loops hgroup hon root
  refine ⟨fun p => mem_deepLoops, deepLoops_sorted limit root, htold, ?_, ?_⟩
  · intro p hp q m n hn hm habove hne hloop
    exact enclosing_deepLoops hp hn hm habove hne hloop
  · rw [← exists_deepLoop_iff hlimit root]
    -- there is a finding of the rule if there is one for the first of the places
    have hempty := htold.length_eq
    constructor
    · rintro ⟨f, hf, hrule⟩
      have hmem : f ∈ (c.made group (root.nodes.flatMap (drafts c.rules))).filter fun f => f.rule.id == loopRule :=
        List.mem_filter.2 ⟨hf, beq_iff_eq.2 hrule⟩
      exact List.exists_mem_of_length_pos (hempty ▸ List.length_pos_of_mem hmem)
    · rintro ⟨p, hp⟩
      obtain ⟨f, hf⟩ := List.exists_mem_of_length_pos (hempty ▸ List.length_pos_of_mem hp)
      obtain ⟨hmem, hrule⟩ := List.mem_filter.1 hf
      exact ⟨f, hmem, beq_iff_eq.1 hrule⟩

/-- **Findings of nested loops are the long chains of loops.**  The depth of a node is the greatest number of loops on a way
down from it, and by recursion one for a loop and the greatest depth of its children.

The built-in rules have the rules of the pass in its group, whatever the overrides.  By such rules, with the one for loops
enabled, the pass finds without a time budget exactly the loops that are deeper than the threshold, each once, in the order of
the tree, at its place and with its depth quoted.  Each loop around one of these is found too and is deeper, and there is one
of them if the tree itself is deeper than the threshold.  A higher threshold takes away the findings that quote no more than
it, and no others. -/
theorem nested_loops_reported :
    (∀ n : Node, IsGreatest {k | ∃ below, n.Descent below ∧ (n :: below).countP (·.label.isLoop) = k} (maxLoopDepth n) ∧
      maxLoopDepth n = (if n.label.isLoop = true then 1 else 0) + (n.children.map maxLoopDepth).foldr max 0) ∧
    (∀ (chain : List (Entries Value)) (R : RuleSet), chain.foldlM RuleSet.withOverrides .builtin = .ok R → Grouped R) ∧
    ∀ c : Context, Grouped c.rules → c.rules.isEnabled loopRule = true → 0 ≤ c.rules.threshold loopRule defaultDepth →
      ∀ root, ∃ fs places, performance.analyze c root none = (.ok fs, none) ∧
        ReportsLoops c.path root (c.rules.threshold loopRule defaultDepth) fs places ∧
        ∀ limit, c.rules.threshold loopRule defaultDepth ≤ limit → ∃ R,
          c.rules.withOverrides [(loopRule, .map [("threshold", .int limit)])] = .ok R ∧
          performance.analyze { c with rules := R } root none =
            (.ok (fs.filter fun f => f.rule.id != loopRule || decide (limit < quoted f)), none) := by
  refine ⟨fun n => ⟨Syntax.maxLoopDepth_isGreatest n, Syntax.maxLoopDepth_eq n⟩, fun chain R => grouped_of_overrides,
    fun c hgroup hon hlimit root => ?_⟩
  refine ⟨_, _, analyze_made hgroup root, made_reportsLoops hgroup hon hlimit root, fun limit hle => ?_⟩
  obtain ⟨r, hr⟩ := RuleSet.exists_of_isEnabled hon
  have hid : loopRule ∈ c.rules.ids := List.mem_map.2 ⟨r, List.mem_of_find?_eq_some hr, RuleSet.find?_id hr⟩
  have hfree : loopRule ≠ parseErrorId := by decide
  refine ⟨c.rules.limited loopRule limit, RuleSet.limit_rule hid hfree (by omega), ?_⟩
  have hlimited := analyze_made (c := { c with rules := c.rules.limited loopRule limit }) (hgroup.limited loopRule limit) root
  rw [hlimited, made_flatMap, made_flatMap, List.filter_flatMap]
  exact congrArg (fun fs => (Except.ok fs, none)) (List.flatMap_congr fun n _ => made_limited hgroup hon hle n)

def loopOn (line : Int) (below : List Node) : Node := .mk ⟨.countedLoop, "for_statement", line, 1, line, 2, none, none, none⟩ none below

/-- Four levels, and a loop beside the innermost one. -/
def fourLevels : Node := loopOn 1 [loopOn 2 [loopOn 3 [loopOn 4 [], loopOn 5 []]]]

/-- Of four levels the two outer loops are reported: more than two levels start at them. -/
theorem two_of_four_levels : ∃ fs places,
    performance.analyze ⟨"a.js", "javascript", .builtin⟩ fourLevels none = (.ok fs, none) ∧
    ReportsLoops "a.js" fourLevels 2 fs places ∧ [] ∈ places ∧ [0] ∈ places ∧ [0, 0] ∉ places ∧
    ∃ R, RuleSet.builtin.withOverrides [(loopRule, .map [("threshold", .int 3)])] = .ok R ∧
      performance.analyze ⟨"a.js", "javascript", R⟩ fourLevels none =
        (.ok (fs.filter fun f => f.rule.id != loopRule || decide (3 < (quoted f : Int))), none) := by
  have hgroup : Grouped .builtin := nested_loops_reported.2.1 [] _ rfl
  obtain ⟨fs, places, hrun, hreports, hraise⟩ :=
    nested_loops_reported.2.2 ⟨"a.js", "javascript", .builtin⟩ hgroup (by decide) (by decide) fourLevels
  have hlimit : RuleSet.builtin.threshold loopRule defaultDepth = 2 := by decide
  rw [hlimit] at hreports hraise
  refine ⟨fs, places, hrun, hreports, ?_, ?_, ?_, hraise 3 (by decide)⟩
  · exact (hreports.mem_iff []).2 ⟨fourLevels, rfl, rfl, by rw [Syntax.maxLoopDepth_eq_loopDepth]; decide⟩
  · exact (hreports.mem_iff [0]).2 ⟨_, rfl, rfl, by rw [Syntax.maxLoopDepth_eq_loopDepth]; decide⟩
  · intro hmem
    obtain ⟨n, hn, -, hdeep⟩ := (hreports.mem_iff [0, 0]).1 hmem
    cases hn
    rw [Syntax.maxLoopDepth_eq_loopDepth] at hdeep
    exact absurd hdeep (by decide)

end CodeReview.Analyzer.Performance
