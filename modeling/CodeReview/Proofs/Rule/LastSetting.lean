import CodeReview.Proofs.Rule.Overrides
import CodeReview.Proofs.Rule.Reading
/-!
# The last setting wins

An override is admitted or not on its own (`RuleSet.Admits`), whatever stands beside it.  Overrides are accepted if each of
them is admitted, and then a rule has the last setting that reaches it (`RuleSet.settled`); else the first that is not
admitted decides the error.
-/
namespace CodeReview
namespace RuleSet

variable {s s' : RuleSet} {es : Entries Value} {e : String × Value}

/-- What a set asks of an override, whatever the others are. -/
structure Admits (s : RuleSet) (e : String × Value) : Prop where
  free : e.1 ≠ parseErrorId
  known : e.1 ∈ s.ids ∨ e.1 ∈ s.groups
  change : IsChange e.2

/-- Whether a key targets a rule: the rule of that identifier or, where there is none, the rules of that group. -/
def targets (s : RuleSet) (key : String) (r : Rule) : Bool := if s.has key then r.id == key else r.analyzer == key

def enabledBy (s : RuleSet) (r : Rule) (e : String × Value) : Option Bool := if s.targets e.1 r then e.2.enabled? else none

/-- What an override sets `threshold` to for a rule, which it has to name. -/
def thresholdBy (r : Rule) (e : String × Value) : Option Int := if r.id == e.1 then e.2.threshold? else none

def lastChanges (s : RuleSet) (es : Entries Value) (r : Rule) : Changes :=
  ⟨(es.filterMap (s.enabledBy r)).getLast?, (es.filterMap (thresholdBy r)).getLast?⟩

def settled (s : RuleSet) (es : Entries Value) : RuleSet := ⟨s.rules.map fun r => (s.lastChanges es r).apply r⟩

theorem settled_nil (s : RuleSet) : s.settled [] = s := by
  have hsame : ∀ r ∈ s.rules, (s.lastChanges [] r).apply r = r := fun r _ => rfl
  rw [settled, List.map_congr_left hsame, List.map_id']

/-! ## Sets that differ in what overrides can set -/

theorem has_of_bare (h : s'.bare = s.bare) (key : String) : s'.has key = s.has key := by
  rw [Bool.eq_iff_iff, has_iff_mem_ids, has_iff_mem_ids, ids_eq_bare, ids_eq_bare, h]

theorem groups_of_bare (h : s'.bare = s.bare) : s'.groups = s.groups := by
  rw [groups_eq_bare, groups_eq_bare, h]

theorem admits_of_bare (h : s'.bare = s.bare) (e : String × Value) : s'.Admits e ↔ s.Admits e := by
  have hids : s'.ids = s.ids := by rw [ids_eq_bare, ids_eq_bare, h]
  have hgroups := groups_of_bare h
  constructor
  · rintro ⟨hfree, hknown, hchange⟩
    exact ⟨hfree, by rwa [← hids, ← hgroups], hchange⟩
  · rintro ⟨hfree, hknown, hchange⟩
    exact ⟨hfree, by rwa [hids, hgroups], hchange⟩

theorem targets_of_bare (h : s'.bare = s.bare) (key : String) (c : Changes) (r : Rule) :
    s'.targets key (c.apply r) = s.targets key r := by
  rw [targets, targets, has_of_bare h]
  rfl

theorem settled_bare (s : RuleSet) (es : Entries Value) : (s.settled es).bare = s.bare := by
  rw [bare, bare, settled, List.map_map]
  exact List.map_congr_left fun r _ => rfl

theorem lastChanges_append (s : RuleSet) (es es' : Entries Value) (r : Rule) : s.lastChanges (es ++ es') r =
    ⟨(s.lastChanges es' r).enabled.or (s.lastChanges es r).enabled,
      (s.lastChanges es' r).threshold.or (s.lastChanges es r).threshold⟩ := by
  simp only [lastChanges, List.filterMap_append, List.getLast?_append]

theorem settled_settled (s : RuleSet) (es es' : Entries Value) : (s.settled es).settled es' = s.settled (es ++ es') := by
  have hlast : ∀ r, (s.settled es).lastChanges es' ((s.lastChanges es r).apply r) = s.lastChanges es' r := by
    intro r
    have henabled : (s.settled es).enabledBy ((s.lastChanges es r).apply r) = s.enabledBy r := by
      funext x
      rw [enabledBy, enabledBy, targets_of_bare (s.settled_bare es)]
    have hthreshold : thresholdBy ((s.lastChanges es r).apply r) = thresholdBy r := rfl
    rw [lastChanges, henabled, hthreshold, lastChanges]
  refine congrArg RuleSet.mk ((List.map_map ..).trans (List.map_congr_left fun r _ => ?_))
  rw [Function.comp_apply, hlast, Changes.apply_apply, lastChanges_append]

/-! ## One override -/

/-- Why a set refuses an override that it does not admit. -/
inductive Refuses (s : RuleSet) (e : String × Value) : OverrideError → Prop
  | reserved : e.1 = parseErrorId → Refuses s e (.reserved e.1)
  | unknown : e.1 ≠ parseErrorId → e.1 ∉ s.ids → e.1 ∉ s.groups →
    Refuses s e (.unknownRule e.1 (s.ids.mergeSort fun a b => a ≤ b))
  | invalid {why : OverrideError} : e.1 ≠ parseErrorId → e.1 ∈ s.ids ∨ e.1 ∈ s.groups →
    Changes.read e.1 e.2 = .error why → Refuses s e why

theorem Refuses.key {why : OverrideError} (h : s.Refuses e why) : why.key = e.1 := by
  cases h with
  | reserved => rfl
  | unknown => rfl
  | invalid _ _ hread => exact Changes.read_error_key hread

theorem Refuses.not_admits {why : OverrideError} (h : s.Refuses e why) : ¬ s.Admits e := by
  rintro ⟨hfree, hknown, hchange⟩
  cases h with
  | reserved hkey => exact hfree hkey
  | unknown _ hids hgroups => exact hknown.elim hids hgroups
  | invalid _ _ hread =>
    have hok : Changes.read e.1 e.2 = .ok _ := Changes.read_ok_iff.2 ⟨hchange, rfl⟩
    rw [hread] at hok
    cases hok

theorem Refuses.unique {why why' : OverrideError} (h : s.Refuses e why) (h' : s.Refuses e why') : why = why' := by
  cases h with
  | reserved hkey =>
    cases h' with
    | reserved => rfl
    | unknown hfree => exact absurd hkey hfree
    | invalid hfree => exact absurd hkey hfree
  | unknown hfree hids hgroups =>
    cases h' with
    | reserved hkey => exact absurd hkey hfree
    | unknown => rfl
    | invalid _ hknown => exact absurd hknown (not_or.2 ⟨hids, hgroups⟩)
  | invalid hfree hknown hread =>
    cases h' with
    | reserved hkey => exact absurd hkey hfree
    | unknown _ hids hgroups => exact absurd hknown (not_or.2 ⟨hids, hgroups⟩)
    | invalid _ _ hread' => exact Except.error.inj (hread.symm.trans hread')

theorem Refuses.of_bare {why : OverrideError} (h : s.Refuses e why) (hs : s'.bare = s.bare) : s'.Refuses e why := by
  have hids : s'.ids = s.ids := by rw [ids_eq_bare, ids_eq_bare, hs]
  have hgroups := groups_of_bare hs
  cases h with
  | reserved hkey => exact .reserved hkey
  | unknown hfree hid hgroup =>
    rw [← hids] at hid ⊢
    exact .unknown hfree hid (by rwa [hgroups])
  | invalid hfree hknown hread => exact .invalid hfree (by rwa [hids, hgroups]) hread

theorem lastChanges_singleton (s : RuleSet) (e : String × Value) (r : Rule) :
    s.lastChanges [e] r = ⟨s.enabledBy r e, thresholdBy r e⟩ := by
  simp only [lastChanges, getLast?_filterMap_cons, List.filterMap_nil, List.getLast?_nil, Option.none_or]

theorem override_of_id (hfree : e.1 ≠ parseErrorId) (hid : e.1 ∈ s.ids) {c : Changes}
    (hread : Changes.read e.1 e.2 = .ok c) : s.override e = .ok (s.settled [e]) := by
  obtain ⟨key, value⟩ := e
  obtain ⟨-, rfl⟩ := Changes.read_ok_iff.1 hread
  have hkey : ¬ (key == parseErrorId) = true := fun heq => hfree (beq_iff_eq.1 heq)
  have hhas : s.has key = true := (s.has_iff_mem_ids key).2 hid
  simp only [override, if_neg hkey, if_pos hhas, hread]
  refine congrArg (fun rs => Except.ok (RuleSet.mk rs)) (List.map_congr_left fun r _ => ?_)
  rw [lastChanges_singleton, enabledBy, thresholdBy, targets, if_pos hhas]
  by_cases hr : (r.id == key) = true
  · simp only [if_pos hr]
  · simp only [if_neg hr]
    rfl

theorem override_of_group (hfree : e.1 ≠ parseErrorId) (hid : e.1 ∉ s.ids) (hg : e.1 ∈ s.groups) {c : Changes}
    (hread : Changes.read e.1 e.2 = .ok c) : s.override e = .ok (s.settled [e]) := by
  obtain ⟨key, value⟩ := e
  obtain ⟨-, rfl⟩ := Changes.read_ok_iff.1 hread
  have hkey : ¬ (key == parseErrorId) = true := fun heq => hfree (beq_iff_eq.1 heq)
  have hhas : ¬ s.has key = true := fun h => hid ((s.has_iff_mem_ids key).1 h)
  have hgroup : s.groups.contains key = true := List.contains_iff_mem.2 hg
  simp only [override, if_neg hkey, if_neg hhas, if_pos hgroup, hread]
  refine congrArg (fun rs => Except.ok (RuleSet.mk rs)) (List.map_congr_left fun r hr => ?_)
  -- The name of a group that is no rule's identifier sets no threshold.
  have hother : ¬ (r.id == key) = true := fun heq => hid (beq_iff_eq.1 heq ▸ List.mem_map_of_mem hr)
  rw [lastChanges_singleton, enabledBy, thresholdBy, targets, if_neg hhas, if_neg hother]
  by_cases hr : (r.analyzer == key) = true
  · simp only [if_pos hr]
    rfl
  · simp only [if_neg hr]
    rfl

theorem override_of_unread (hfree : e.1 ≠ parseErrorId) (hknown : e.1 ∈ s.ids ∨ e.1 ∈ s.groups) {why : OverrideError}
    (hread : Changes.read e.1 e.2 = .error why) : s.override e = .error why := by
  obtain ⟨key, value⟩ := e
  have hkey : ¬ (key == parseErrorId) = true := fun heq => hfree (beq_iff_eq.1 heq)
  simp only [override, if_neg hkey, hread]
  by_cases hhas : s.has key = true
  · rw [if_pos hhas]
    rfl
  · have hid : key ∉ s.ids := fun hmem => hhas ((s.has_iff_mem_ids key).2 hmem)
    rw [if_neg hhas, if_pos (List.contains_iff_mem.2 (hknown.resolve_left hid))]
    rfl

/-- **An override is admitted and settles its rules, or it is refused.** -/
theorem override_cases (s : RuleSet) (e : String × Value) :
    (s.Admits e ∧ s.override e = .ok (s.settled [e])) ∨ ∃ why, s.Refuses e why ∧ s.override e = .error why := by
  by_cases hkey : e.1 = parseErrorId
  · refine .inr ⟨_, .reserved hkey, ?_⟩
    rw [override, if_pos (beq_iff_eq.2 hkey)]
  by_cases hknown : e.1 ∈ s.ids ∨ e.1 ∈ s.groups
  · cases hread : Changes.read e.1 e.2 with
    | error why => exact .inr ⟨why, .invalid hkey hknown hread, override_of_unread hkey hknown hread⟩
    | ok c =>
      refine .inl ⟨⟨hkey, hknown, (Changes.read_ok_iff.1 hread).1⟩, ?_⟩
      by_cases hid : e.1 ∈ s.ids
      · exact override_of_id hkey hid hread
      · exact override_of_group hkey hid (hknown.resolve_left hid) hread
  · rw [not_or] at hknown
    refine .inr ⟨_, .unknown hkey hknown.1 hknown.2, ?_⟩
    have hhas : ¬ s.has e.1 = true := fun h => hknown.1 ((s.has_iff_mem_ids e.1).1 h)
    have hgroup : ¬ s.groups.contains e.1 = true := fun h => hknown.2 (List.contains_iff_mem.1 h)
    rw [override, if_neg fun heq => hkey (beq_iff_eq.1 heq), if_neg hhas, if_neg hgroup]

theorem override_ok_iff : s.override e = .ok s' ↔ s.Admits e ∧ s' = s.settled [e] := by
  rcases s.override_cases e with ⟨hadmits, hok⟩ | ⟨why, hrefuses, herror⟩
  · rw [hok]
    exact ⟨fun h => ⟨hadmits, (Except.ok.inj h).symm⟩, fun h => congrArg Except.ok h.2.symm⟩
  · rw [herror]
    exact ⟨fun h => (by cases h), fun h => absurd h.1 hrefuses.not_admits⟩

theorem override_error_iff {why : OverrideError} : s.override e = .error why ↔ s.Refuses e why := by
  rcases s.override_cases e with ⟨hadmits, hok⟩ | ⟨first, hrefuses, herror⟩
  · rw [hok]
    exact ⟨fun h => (by cases h), fun h => absurd hadmits h.not_admits⟩
  · rw [herror]
    exact ⟨fun h => Except.error.inj h ▸ hrefuses, fun h => congrArg Except.error (hrefuses.unique h)⟩

/-! ## All of them -/

/-- **Overrides are accepted if each is admitted**, and then the last setting that reaches a rule wins. -/
theorem withOverrides_ok_iff : s.withOverrides es = .ok s' ↔ (∀ e ∈ es, s.Admits e) ∧ s' = s.settled es := by
  induction es generalizing s with
  | nil =>
    constructor
    · intro h
      cases h
      exact ⟨fun e he => (by cases he), (settled_nil _).symm⟩
    · rintro ⟨-, rfl⟩
      rw [settled_nil]
      rfl
  | cons e es ih =>
    rw [withOverrides, List.foldlM_cons, List.forall_mem_cons]
    by_cases hadmits : s.Admits e
    · have hbare := s.settled_bare [e]
      rw [override_ok_iff.2 ⟨hadmits, rfl⟩]
      have hrest := ih (s := s.settled [e])
      simp only [admits_of_bare hbare, settled_settled, List.singleton_append] at hrest
      exact hrest.trans ⟨fun h => ⟨⟨hadmits, h.1⟩, h.2⟩, fun h => ⟨h.1.2, h.2⟩⟩
    · constructor
      · intro h
        cases ho : s.override e with
        | error why => rw [ho] at h; cases h
        | ok s₁ => exact absurd (override_ok_iff.1 ho).1 hadmits
      · rintro ⟨⟨hall, -⟩, -⟩
        exact absurd hall hadmits

/-- **The first override that is not admitted decides the error**, as if it stood alone. -/
theorem withOverrides_error_iff {why : OverrideError} : s.withOverrides es = .error why ↔
    ∃ before e after, es = before ++ e :: after ∧ (∀ x ∈ before, s.Admits x) ∧ ¬ s.Admits e ∧
      s.override e = .error why := by
  constructor
  · intro h
    induction es generalizing s with
    | nil => cases h
    | cons e es ih =>
      rw [withOverrides, List.foldlM_cons] at h
      cases ho : s.override e with
      | error first =>
        rw [ho] at h
        cases h
        exact ⟨[], e, es, rfl, fun x hx => (by cases hx), (override_error_iff.1 ho).not_admits, ho⟩
      | ok s₁ =>
        rw [ho] at h
        have hbare := override_bare ho
        obtain ⟨before, x, after, rfl, hbefore, hx, herror⟩ := ih (s := s₁) h
        refine ⟨e :: before, x, after, rfl, ?_, fun hadmits => hx ((admits_of_bare hbare x).2 hadmits),
          override_error_iff.2 ((override_error_iff.1 herror).of_bare hbare.symm)⟩
        rw [List.forall_mem_cons]
        exact ⟨(override_ok_iff.1 ho).1, fun y hy => (admits_of_bare hbare y).1 (hbefore y hy)⟩
  · rintro ⟨before, e, after, rfl, hbefore, -, herror⟩
    have hok : s.withOverrides before = .ok (s.settled before) := withOverrides_ok_iff.2 ⟨hbefore, rfl⟩
    have he : (s.settled before).override e = .error why :=
      override_error_iff.2 ((override_error_iff.1 herror).of_bare (s.settled_bare before))
    have hsplit : s.withOverrides (before ++ e :: after) = s.withOverrides before >>= (withOverrides · (e :: after)) :=
      List.foldlM_append
    have hstep : (s.settled before).withOverrides (e :: after) = .error why := by
      rw [withOverrides, List.foldlM_cons, he]
      rfl
    rw [hsplit, hok]
    exact hstep

/-- **Overrides that were applied change nothing more.** -/
theorem withOverrides_again (h : s.withOverrides es = .ok s') : s'.withOverrides es = .ok s' := by
  obtain ⟨hall, rfl⟩ := withOverrides_ok_iff.1 h
  have htwice : s.settled (es ++ es) = s.settled es := by
    refine congrArg RuleSet.mk (List.map_congr_left fun r _ => ?_)
    rw [lastChanges_append, Option.or_self, Option.or_self]
  refine withOverrides_ok_iff.2 ⟨fun e he => (admits_of_bare (s.settled_bare es) e).2 (hall e he), ?_⟩
  rw [settled_settled, htwice]

/-- **Whether overrides are accepted does not depend on their order.** -/
theorem withOverrides_perm {es' : Entries Value} (h : es'.Perm es) :
    (∃ t, s.withOverrides es' = .ok t) ↔ ∃ t, s.withOverrides es = .ok t := by
  have hiff : ∀ l : Entries Value, (∃ t, s.withOverrides l = .ok t) ↔ ∀ e ∈ l, s.Admits e := by
    intro l
    constructor
    · rintro ⟨t, ht⟩
      exact (withOverrides_ok_iff.1 ht).1
    · intro hall
      exact ⟨_, withOverrides_ok_iff.2 ⟨hall, rfl⟩⟩
  rw [hiff, hiff]
  exact ⟨fun hall e he => hall e (h.mem_iff.2 he), fun hall e he => hall e (h.mem_iff.1 he)⟩

theorem withOverrides_fails_iff : (∃ why, s.withOverrides es = .error why) ↔ ∃ e ∈ es, ¬ s.Admits e := by
  constructor
  · rintro ⟨why, h⟩
    obtain ⟨before, e, after, rfl, -, hno, -⟩ := withOverrides_error_iff.1 h
    exact ⟨e, List.mem_append_right before List.mem_cons_self, hno⟩
  · rintro ⟨e, he, hno⟩
    cases h : s.withOverrides es with
    | error why => exact ⟨why, rfl⟩
    | ok t => exact absurd ((withOverrides_ok_iff.1 h).1 e he) hno

/-- Overrides are refused if one of them is not admitted, for the first of these and as if it stood alone.  Else a rule has
the last setting that reaches it by its identifier or its group, or the old one if there is none; its threshold is set by its
identifier only.  The same overrides once more change nothing, their order does not decide whether they are accepted, and
none of them reaches the rule of files without a tree. -/
theorem last_setting_wins (s : RuleSet) (es : Entries Value) :
    ((∃ why, s.withOverrides es = .error why) ↔ ∃ e ∈ es, ¬ s.Admits e) ∧
    (∀ why, s.withOverrides es = .error why ↔ ∃ before e after, es = before ++ e :: after ∧
      (∀ x ∈ before, s.Admits x) ∧ ¬ s.Admits e ∧ s.withOverrides [e] = .error why ∧ why.key = e.1) ∧
    (∀ s', s.withOverrides es = .ok s' →
      s'.rules = s.rules.map (fun r => { r with
        enabled := ((es.filterMap (s.enabledBy r)).getLast?).getD r.enabled
        threshold := ((es.filterMap (thresholdBy r)).getLast?).or r.threshold }) ∧
      s'.withOverrides es = .ok s' ∧
      ∀ r, s.find? parseErrorId = some r → r.analyzer = engineGroup → s'.find? parseErrorId = some r) ∧
    ∀ es', es'.Perm es → ((∃ t, s.withOverrides es' = .ok t) ↔ ∃ t, s.withOverrides es = .ok t) := by
  have hsingle : ∀ e why, s.withOverrides [e] = .error why ↔ s.override e = .error why := by
    intro e why
    rw [withOverrides, List.foldlM_cons]
    cases s.override e with
    | ok s₁ => exact ⟨fun h => (by cases h), fun h => (by cases h)⟩
    | error first => exact Iff.rfl
  refine ⟨withOverrides_fails_iff, fun why => ?_, fun s' h => ⟨?_, withOverrides_again h, fun r hr hg => ?_⟩,
    fun es' hperm => withOverrides_perm hperm⟩
  · rw [withOverrides_error_iff]
    constructor
    · rintro ⟨before, e, after, hes, hbefore, hno, herror⟩
      exact ⟨before, e, after, hes, hbefore, hno, (hsingle e why).2 herror, (override_error_iff.1 herror).key⟩
    · rintro ⟨before, e, after, hes, hbefore, hno, herror, -⟩
      exact ⟨before, e, after, hes, hbefore, hno, (hsingle e why).1 herror⟩
  · obtain ⟨-, rfl⟩ := withOverrides_ok_iff.1 h
    rfl
  · exact withOverrides_engine h hr hg

end RuleSet
end CodeReview
