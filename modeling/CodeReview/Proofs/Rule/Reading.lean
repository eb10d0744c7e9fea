import CodeReview.Rule.Override
/-!
# Values of overrides

An override is read if its value is one of those that it may have (`IsChange`), and then it sets what the last entry for
each of the two settings says (`Changes.read_ok_iff`); else the error names the key of the override.
-/
namespace CodeReview

/-- The settings that the table of an override may have, each with a value of its sort. -/
inductive IsSetting : String × Value → Prop
  | enabled (b : Bool) : IsSetting ("enabled", .bool b)
  | threshold {n : Int} : 0 ≤ n → IsSetting ("threshold", .int n)

inductive IsChange : Value → Prop
  | flag (b : Bool) : IsChange (.bool b)
  | table {v : Value} : v.isTable = true → (∀ e ∈ v.entries, IsSetting e) → IsChange v

def entryEnabled? : String × Value → Option Bool
  | ("enabled", .bool b) => some b
  | _ => none

def entryThreshold? : String × Value → Option Int
  | ("threshold", .int n) => some n
  | _ => none

def Value.enabled? : Value → Option Bool
  | .bool b => some b
  | v => (v.entries.filterMap entryEnabled?).getLast?

def Value.threshold? (v : Value) : Option Int := (v.entries.filterMap entryThreshold?).getLast?

theorem getLast?_filterMap_cons {α β : Type} (f : α → Option β) (a : α) (l : List α) :
    ((a :: l).filterMap f).getLast? = ((l.filterMap f).getLast?).or (f a) := by
  cases h : f a with
  | none => rw [List.filterMap_cons_none h, Option.or_none]
  | some b =>
    rw [List.filterMap_cons_some h, List.getLast?_cons]
    cases (l.filterMap f).getLast? <;> rfl

/-! ## Reading an override -/

namespace Changes

theorem readSetting_ok_iff {key : String} {c c' : Changes} {e : String × Value} :
    readSetting key c e = .ok c' ↔
      IsSetting e ∧ c' = ⟨(entryEnabled? e).or c.enabled, (entryThreshold? e).or c.threshold⟩ := by
  constructor
  · intro h
    unfold readSetting at h
    split at h
    · cases h
      exact ⟨.enabled _, rfl⟩
    · cases h
    · rename_i n
      split at h
      · cases h
      · rename_i hn
        cases h
        exact ⟨.threshold (Int.not_lt.1 hn), rfl⟩
    · cases h
    · cases h
  · rintro ⟨he, rfl⟩
    cases he with
    | enabled b => rfl
    | threshold hn =>
      have hn' := Int.not_lt.2 hn
      simp only [readSetting, if_neg hn']
      rfl

theorem readSettings_ok_iff {key : String} : ∀ {es : Entries Value} {c c' : Changes},
    es.foldlM (readSetting key) c = .ok c' ↔ (∀ e ∈ es, IsSetting e) ∧
      c' = ⟨((es.filterMap entryEnabled?).getLast?).or c.enabled, ((es.filterMap entryThreshold?).getLast?).or c.threshold⟩
  | [], c, c' => by
    constructor
    · intro h
      cases h
      exact ⟨fun e he => (by cases he), rfl⟩
    · rintro ⟨-, rfl⟩
      rfl
  | e :: es, c, c' => by
    rw [List.foldlM_cons]
    cases hr : readSetting key c e with
    | error why =>
      constructor
      · intro h
        cases h
      · rintro ⟨hall, -⟩
        have hok : readSetting key c e = .ok _ := readSetting_ok_iff.2 ⟨hall e List.mem_cons_self, rfl⟩
        rw [hr] at hok
        cases hok
    | ok c₁ =>
      obtain ⟨he, rfl⟩ := readSetting_ok_iff.1 hr
      rw [getLast?_filterMap_cons, getLast?_filterMap_cons, Option.or_assoc, Option.or_assoc, List.forall_mem_cons]
      refine readSettings_ok_iff.trans ⟨fun h => ⟨⟨he, h.1⟩, h.2⟩, fun h => ⟨h.1.2, h.2⟩⟩

/-- **An override is read if its value is one that it may have**, and then it says what the value sets. -/
theorem read_ok_iff {key : String} {v : Value} {c : Changes} :
    read key v = .ok c ↔ IsChange v ∧ c = ⟨v.enabled?, v.threshold?⟩ := by
  by_cases hb : ∃ b, v = .bool b
  · obtain ⟨b, rfl⟩ := hb
    constructor
    · intro h
      cases h
      exact ⟨.flag b, rfl⟩
    · rintro ⟨-, rfl⟩
      rfl
  have hflag : v.enabled? = (v.entries.filterMap entryEnabled?).getLast? := by
    cases v with
    | bool b => exact absurd ⟨b, rfl⟩ hb
    | _ => rfl
  have hread : read key v =
      if v.isTable then v.entries.foldlM (readSetting key) {} else .error (.notASetting key v) := by
    cases v with
    | bool b => exact absurd ⟨b, rfl⟩ hb
    | _ => rfl
  have hchange : IsChange v ↔ v.isTable = true ∧ ∀ e ∈ v.entries, IsSetting e := by
    constructor
    · rintro (b | ⟨ht, hall⟩)
      · exact absurd ⟨b, rfl⟩ hb
      · exact ⟨ht, hall⟩
    · rintro ⟨ht, hall⟩
      exact .table ht hall
  rw [hread, hchange, hflag, Value.threshold?]
  by_cases ht : v.isTable = true
  · rw [if_pos ht, readSettings_ok_iff, Option.or_none, Option.or_none]
    simp only [ht, true_and]
  · rw [if_neg ht]
    simp only [ht, false_and, Bool.false_eq_true, reduceCtorEq]

theorem apply_apply (c c' : Changes) (r : Rule) :
    c'.apply (c.apply r) = (⟨c'.enabled.or c.enabled, c'.threshold.or c.threshold⟩ : Changes).apply r := by
  simp only [apply, Option.or_assoc]
  cases c'.enabled <;> rfl

end Changes

def OverrideError.key : OverrideError → String
  | reserved key => key
  | unknownRule key _ => key
  | notASetting key _ => key
  | badEnabled key => key
  | badThreshold key => key
  | unknownSetting key _ => key

theorem Changes.readSettings_error_key {key : String} {why : OverrideError} : ∀ {es : Entries Value} {c : Changes},
    es.foldlM (readSetting key) c = .error why → why.key = key
  | [], c, h => by cases h
  | e :: es, c, h => by
    rw [List.foldlM_cons] at h
    cases hr : readSetting key c e with
    | ok c₁ =>
      rw [hr] at h
      exact readSettings_error_key h
    | error first =>
      rw [hr] at h
      cases h
      unfold readSetting at hr
      split at hr
      · cases hr
      · cases hr; rfl
      · split at hr
        · cases hr; rfl
        · cases hr
      · cases hr; rfl
      · cases hr; rfl

theorem Changes.read_error_key {key : String} {v : Value} {why : OverrideError} (h : read key v = .error why) :
    why.key = key := by
  unfold read at h
  split at h
  · cases h
  split at h
  · exact readSettings_error_key h
  · cases h
    rfl

end CodeReview
