import CodeReview.Rule.Override
/-!
# What overrides change

An override sets thresholds and what is enabled, and leaves the rest of a rule set as it is (`withOverrides_bare`).  To
disable a rule, or a group of rules, is to take it out of what the set enables, and nothing else (`isEnabled_without`).  The
identifiers of the built-in rules have no colon in them, whatever the overrides (`colonFree_of_has`).
-/
namespace CodeReview

/-- A rule without what an override can set. -/
def Rule.bare (r : Rule) : Rule := { r with enabled := true, threshold := none }

namespace RuleSet

def bare (s : RuleSet) : List Rule := s.rules.map Rule.bare

theorem map_apply_bare (p : Rule → Bool) (c : Changes) (rs : List Rule) :
    (rs.map fun r => if p r = true then c.apply r else r).map Rule.bare = rs.map Rule.bare := by
  rw [List.map_map]
  refine List.map_congr_left fun r _ => ?_
  rw [Function.comp_apply]
  cases p r <;> rfl

theorem ok_of_read {key : String} {value : Value} {make : Changes → RuleSet} {s' : RuleSet}
    (h : (do let c ← Changes.read key value; return make c) = Except.ok s') : ∃ c, make c = s' := by
  cases hc : Changes.read key value with
  | error e => rw [hc] at h; cases h
  | ok c =>
    rw [hc] at h
    cases h
    exact ⟨c, rfl⟩

theorem override_bare {s s' : RuleSet} {entry : String × Value} (h : s.override entry = .ok s') : s'.bare = s.bare := by
  obtain ⟨key, value⟩ := entry
  simp only [override] at h
  split at h
  · cases h
  split at h
  · obtain ⟨c, rfl⟩ := ok_of_read h
    exact map_apply_bare (fun r => r.id == key) c s.rules
  split at h
  · obtain ⟨c, rfl⟩ := ok_of_read h
    exact map_apply_bare (fun r => r.analyzer == key) c.forGroup s.rules
  · cases h

/-- **Overrides change nothing but thresholds and what is enabled.** -/
theorem withOverrides_bare : ∀ {entries : Entries Value} {s s' : RuleSet}, s.withOverrides entries = .ok s' →
    s'.bare = s.bare
  | [], s, s', h => by
    cases h
    rfl
  | e :: es, s, s', h => by
    rw [withOverrides, List.foldlM_cons] at h
    cases ho : s.override e with
    | error why => rw [ho] at h; cases h
    | ok s₁ =>
      rw [ho] at h
      exact (withOverrides_bare (s := s₁) h).trans (override_bare ho)

/-- **Overrides of overridden rules are overrides**: a chain comes to what all its entries do, one after the other. -/
theorem withOverrides_flatten (chain : List (Entries Value)) (s : RuleSet) :
    chain.foldlM withOverrides s = s.withOverrides chain.flatten := by
  induction chain generalizing s with
  | nil => rfl
  | cons es chain ih =>
    have hsplit : s.withOverrides (es ++ chain.flatten) = s.withOverrides es >>= (withOverrides · chain.flatten) :=
      List.foldlM_append
    rw [List.foldlM_cons, List.flatten_cons, hsplit]
    exact congrArg (Bind.bind (s.withOverrides es)) (funext ih)

/-! ## The rules behind an identifier -/

theorem has_iff_mem_ids (s : RuleSet) (id : String) : s.has id = true ↔ id ∈ s.ids := by
  simp only [has, ids, List.any_eq_true, beq_iff_eq, List.mem_map]

theorem find?_bare (s : RuleSet) (id : String) : (s.find? id).map Rule.bare = s.bare.find? (·.id == id) := by
  rw [bare, List.find?_map]
  rfl

/-- **An identifier of a rule keeps its rule**, but for what overrides can set. -/
theorem find?_of_bare {s s' : RuleSet} (h : s'.bare = s.bare) {id : String} {b : Rule} (hb : s.find? id = some b) :
    ∃ r, s'.find? id = some r ∧ r.bare = b.bare := by
  have hs : (s'.find? id).map Rule.bare = some b.bare := by rw [find?_bare, h, ← find?_bare, hb, Option.map_some]
  obtain ⟨r, hr, hrb⟩ := Option.map_eq_some_iff.1 hs
  exact ⟨r, hr, hrb⟩

theorem exists_of_isEnabled {s : RuleSet} {id : String} (h : s.isEnabled id = true) : ∃ r, s.find? id = some r := by
  cases hr : s.find? id with
  | some r => exact ⟨r, rfl⟩
  | none =>
    rw [isEnabled, hr] at h
    cases h

theorem find?_id {s : RuleSet} {id : String} {r : Rule} (h : s.find? id = some r) : r.id = id := by
  have := List.find?_some h
  simpa using this

/-! ## Rules of the engine -/

theorem find?_map_apply {s : RuleSet} {p : Rule → Bool} (c : Changes) {id : String} {r : Rule} (h : s.find? id = some r)
    (hp : p r = false) : (RuleSet.mk (s.rules.map fun r => if p r = true then c.apply r else r)).find? id = some r := by
  have hid : ((fun r : Rule => r.id == id) ∘ fun r => if p r = true then c.apply r else r) = fun r => r.id == id := by
    funext x
    rw [Function.comp_apply]
    cases p x <;> rfl
  have hfind : s.rules.find? (fun r => r.id == id) = some r := h
  rw [find?, List.find?_map, hid, hfind, Option.map_some, hp, if_neg Bool.false_ne_true]

theorem override_engine {s s' : RuleSet} {entry : String × Value} (h : s.override entry = .ok s') {r : Rule}
    (hr : s.find? parseErrorId = some r) (hg : r.analyzer = engineGroup) : s'.find? parseErrorId = some r := by
  obtain ⟨key, value⟩ := entry
  simp only [override] at h
  split at h
  · cases h
  rename_i hkey
  split at h
  · obtain ⟨c, rfl⟩ := ok_of_read h
    have hother : (r.id == key) = false := by
      rw [find?_id hr]
      exact beq_eq_false_iff_ne.2 fun heq => hkey (beq_iff_eq.2 heq.symm)
    exact find?_map_apply c hr hother
  split at h
  · rename_i hgroup
    obtain ⟨c, rfl⟩ := ok_of_read h
    have hother : (r.analyzer == key) = false := by
      have hne : (key != engineGroup) = true := (List.mem_filter.1 (List.contains_iff_mem.1 hgroup)).2
      rw [hg]
      exact beq_eq_false_iff_ne.2 fun heq => bne_iff_ne.1 hne heq.symm
    exact find?_map_apply c.forGroup hr hother
  · cases h

/-- **No override reaches the rule of files without a tree**, which is of the engine. -/
theorem withOverrides_engine {es : Entries Value} {s s' : RuleSet} (h : s.withOverrides es = .ok s') {r : Rule}
    (hr : s.find? parseErrorId = some r) (hg : r.analyzer = engineGroup) : s'.find? parseErrorId = some r := by
  induction es generalizing s with
  | nil =>
    cases h
    exact hr
  | cons e es ih =>
    rw [withOverrides, List.foldlM_cons] at h
    cases ho : s.override e with
    | error why => rw [ho] at h; cases h
    | ok s₁ =>
      rw [ho] at h
      exact ih h (override_engine ho hr hg)

/-! ## Disabling -/

def offIf (q : Rule → Bool) (r : Rule) : Rule := if q r = true then { r with enabled := false } else r

/-- The rule set without some of its rules, which are there but disabled. -/
def without (s : RuleSet) (q : Rule → Bool) : RuleSet := ⟨s.rules.map (offIf q)⟩

def names (s : RuleSet) (q : Rule → Bool) (id : String) : Bool := (s.find? id).any q

theorem find?_without (s : RuleSet) (q : Rule → Bool) (id : String) :
    (s.without q).find? id = (s.find? id).map (offIf q) := by
  have hid : (fun r : Rule => r.id == id) ∘ offIf q = fun r => r.id == id := by
    funext r
    rw [Function.comp_apply, offIf]
    cases q r <;> rfl
  rw [find?, without, List.find?_map, hid]
  rfl

/-- **A rule is enabled without others** if it is enabled and none of them. -/
theorem isEnabled_without (s : RuleSet) (q : Rule → Bool) (id : String) :
    (s.without q).isEnabled id = (s.isEnabled id && !s.names q id) := by
  rw [isEnabled, isEnabled, names, find?_without]
  cases s.find? id with
  | none => rfl
  | some r =>
    rw [Option.map_some, Option.any_some, offIf]
    cases q r with
    | true => exact (Bool.and_false r.enabled).symm
    | false => exact (Bool.and_true r.enabled).symm

theorem threshold_without (s : RuleSet) (q : Rule → Bool) (id : String) (default : Int) :
    (s.without q).threshold id default = s.threshold id default := by
  rw [threshold, threshold, find?_without]
  cases s.find? id with
  | none => rfl
  | some r =>
    rw [Option.map_some, offIf]
    cases q r <;> rfl

theorem find?_without_of_not_names {s : RuleSet} {q : Rule → Bool} {id : String} (h : s.names q id = false) :
    (s.without q).find? id = s.find? id := by
  rw [find?_without]
  rw [names] at h
  cases hr : s.find? id with
  | none => rfl
  | some r =>
    rw [hr, Option.any_some] at h
    rw [Option.map_some, offIf, h, if_neg Bool.false_ne_true]

theorem apply_off (key : Rule → Bool) (rs : List Rule) :
    (rs.map fun r => if key r = true then (⟨some false, none⟩ : Changes).apply r else r) = rs.map (offIf key) := by
  refine List.map_congr_left fun r _ => ?_
  rw [offIf]
  cases key r <;> rfl

/-- **An override can disable any rule** but that of files without a tree. -/
theorem disable_rule {s : RuleSet} {id : String} (hid : id ∈ s.ids) (hne : id ≠ parseErrorId) :
    s.withOverrides [(id, .bool false)] = .ok (s.without fun r => r.id == id) := by
  have hhas : s.has id = true := (s.has_iff_mem_ids id).2 hid
  have hkey : ¬ (id == parseErrorId) = true := by simpa using hne
  have hoverride : s.override (id, .bool false) = .ok (s.without fun r => r.id == id) := by
    simp only [override, if_neg hkey, if_pos hhas]
    exact congrArg (fun rs => Except.ok (RuleSet.mk rs)) (apply_off (fun r => r.id == id) s.rules)
  rw [withOverrides, List.foldlM_cons, hoverride]
  rfl

/-- **An override can disable any group of rules.** -/
theorem disable_group {s : RuleSet} {group : String} (hg : group ∈ s.groups) (hid : s.has group = false)
    (hne : group ≠ parseErrorId) :
    s.withOverrides [(group, .bool false)] = .ok (s.without fun r => r.analyzer == group) := by
  have hkey : ¬ (group == parseErrorId) = true := by simpa using hne
  have hno : ¬ s.has group = true := by rw [hid]; exact Bool.false_ne_true
  have hgroup : s.groups.contains group = true := List.contains_iff_mem.2 hg
  have hoverride : s.override (group, .bool false) = .ok (s.without fun r => r.analyzer == group) := by
    simp only [override, if_neg hkey, if_neg hno, if_pos hgroup]
    exact congrArg (fun rs => Except.ok (RuleSet.mk rs)) (apply_off (fun r => r.analyzer == group) s.rules)
  rw [withOverrides, List.foldlM_cons, hoverride]
  rfl

/-! ## Limits -/

def limited (s : RuleSet) (id : String) (limit : Int) : RuleSet :=
  ⟨s.rules.map fun r => if r.id == id then { r with threshold := some limit } else r⟩

theorem find?_limited (s : RuleSet) (id : String) (limit : Int) (x : String) : (s.limited id limit).find? x =
    (s.find? x).map fun r => if r.id == id then { r with threshold := some limit } else r := by
  have hid : ((fun r : Rule => r.id == x) ∘ fun r => if r.id == id then { r with threshold := some limit } else r) =
      fun r => r.id == x := by
    funext r
    rw [Function.comp_apply]
    split <;> rfl
  rw [find?, limited, List.find?_map, hid]
  rfl

theorem isEnabled_limited (s : RuleSet) (id : String) (limit : Int) (x : String) :
    (s.limited id limit).isEnabled x = s.isEnabled x := by
  rw [isEnabled, isEnabled, find?_limited]
  cases s.find? x with
  | none => rfl
  | some r =>
    dsimp only [Option.map_some]
    split <;> rfl

theorem threshold_limited {s : RuleSet} {id : String} {r : Rule} (h : s.find? id = some r) (limit default : Int) :
    (s.limited id limit).threshold id default = limit := by
  have hid : (r.id == id) = true := beq_iff_eq.2 (find?_id h)
  rw [threshold, find?_limited, h, Option.map_some, if_pos hid]
  rfl

theorem threshold_limited_of_ne {id x : String} (hne : x ≠ id) (s : RuleSet) (limit default : Int) :
    (s.limited id limit).threshold x default = s.threshold x default := by
  rw [threshold, threshold, find?_limited]
  cases hr : s.find? x with
  | none => rfl
  | some r =>
    have hid : ¬ (r.id == id) = true := fun h => hne ((find?_id hr).symm.trans (beq_iff_eq.1 h))
    rw [Option.map_some, if_neg hid]

/-- **An override can set the threshold of any rule** but that of files without a tree. -/
theorem limit_rule {s : RuleSet} {id : String} (hid : id ∈ s.ids) (hne : id ≠ parseErrorId) {limit : Int} (h : 0 ≤ limit) :
    s.withOverrides [(id, .map [("threshold", .int limit)])] = .ok (s.limited id limit) := by
  have hhas : s.has id = true := (s.has_iff_mem_ids id).2 hid
  have hkey : ¬ (id == parseErrorId) = true := by simpa using hne
  have hread : Changes.read id (.map [("threshold", .int limit)]) = .ok { threshold := some limit } := by
    have hlimit : ¬ limit < 0 := by omega
    show Changes.readSetting id {} ("threshold", .int limit) >>= _ = _
    rw [Changes.readSetting, if_neg hlimit]
    rfl
  have hoverride : s.override (id, .map [("threshold", .int limit)]) = .ok (s.limited id limit) := by
    simp only [override, if_neg hkey, if_pos hhas, hread]
    rfl
  rw [withOverrides, List.foldlM_cons, hoverride]
  rfl

/-! ## The built-in rules under overrides -/

section

variable {entries : Entries Value} {s : RuleSet}

theorem groups_eq_bare (s : RuleSet) : s.groups = (s.bare.map (·.analyzer)).filter (· != engineGroup) := by
  rw [groups, bare, List.map_map]
  rfl

theorem ids_eq_bare (s : RuleSet) : s.ids = s.bare.map (·.id) := by
  rw [ids, bare, List.map_map]
  rfl

/-- **An override can disable any group of the built-in rules**, also one that is called as its only rule is. -/
theorem disable_builtin_group (hs : builtin.withOverrides entries = .ok s) {group : String} (hg : group ∈ s.groups) :
    s.withOverrides [(group, .bool false)] = .ok (s.without fun r => r.analyzer == group) := by
  have hbare : s.bare = builtin.bare := withOverrides_bare hs
  have hgroup : group ∈ builtin.groups := by rwa [groups_eq_bare, ← hbare, ← groups_eq_bare]
  have hall : ∀ g ∈ builtin.groups, g ≠ parseErrorId ∧
      (g ∈ builtin.ids → ∀ b ∈ builtin.bare, (b.id == g) = (b.analyzer == g)) := by
    decide +kernel
  obtain ⟨hne, hsame⟩ := hall group hgroup
  cases hid : s.has group with
  | false => exact disable_group hg hid hne
  | true =>
    have hmem : group ∈ s.ids := (s.has_iff_mem_ids group).1 hid
    have hrules : ∀ r ∈ s.rules, (r.id == group) = (r.analyzer == group) := by
      intro r hr
      have hbuiltin : group ∈ builtin.ids := by rwa [ids_eq_bare, ← hbare, ← ids_eq_bare]
      have hr' : r.bare ∈ builtin.bare := hbare ▸ List.mem_map_of_mem hr
      exact hsame hbuiltin r.bare hr'
    rw [disable_rule hmem hne, without, without]
    refine congrArg (fun rs => Except.ok (RuleSet.mk rs)) (List.map_congr_left fun r hr => ?_)
    rw [offIf, offIf, hrules r hr]

/-- Rules of the engine are in no group that an override may name. -/
theorem names_parseError (hs : builtin.withOverrides entries = .ok s) {q : Rule → Bool}
    (hq : ∀ r, r.id = parseErrorId → r.analyzer = engineGroup → q r = false) : s.names q parseErrorId = false := by
  have hfind : builtin.find? parseErrorId = some parseErrorRule := rfl
  obtain ⟨r, hr, hbare⟩ := find?_of_bare (withOverrides_bare hs) hfind
  have hgroup : r.bare.analyzer = parseErrorRule.bare.analyzer := by rw [hbare]
  rw [names, hr, Option.any_some]
  exact hq r (find?_id hr) hgroup

theorem names_id {id : String} (hid : id ∈ s.ids) (x : String) : s.names (fun r => r.id == id) x = (x == id) := by
  rw [names]
  cases hr : s.find? x with
  | some r => rw [Option.any_some, find?_id hr]
  | none =>
    have hne : x ≠ id := by
      rintro rfl
      obtain ⟨r, hmem, hrid⟩ := List.mem_map.1 hid
      have := List.find?_eq_none.1 hr r hmem
      simp [hrid] at this
    rw [Option.any_none]
    symm
    simpa using hne

end

/-! ## Identifiers -/

/-- **Overrides keep the identifiers of a rule set.** -/
theorem withOverrides_ids {entries : Entries Value} {s s' : RuleSet} (h : s.withOverrides entries = .ok s') :
    s'.ids = s.ids := by
  rw [ids_eq_bare, ids_eq_bare, withOverrides_bare h]

theorem builtin_ids_colonFree : ∀ id ∈ builtin.ids, ':' ∉ id.toList := by
  simp only [ids, builtin, builtinRules, List.map_cons, List.map_nil, List.forall_mem_cons]
  decide +kernel

/-- **No identifier of a built-in rule has a colon in it**, whatever the overrides. -/
theorem colonFree_of_has {overrides : Entries Value} {s : RuleSet} (hs : builtin.withOverrides overrides = .ok s)
    {id : String} (h : s.has id = true) : ':' ∉ id.toList := by
  rw [has_iff_mem_ids, withOverrides_ids hs] at h
  exact builtin_ids_colonFree id h

end RuleSet
end CodeReview
