import CodeReview.Proofs.Rule.LastSetting
import CodeReview.Settings.Basic
/-!
# Settings that are read

Settings are read from a table exactly if they are what the table says (`ofFilled_ok_iff`): what is written under a key is
of the sort that the field asks for, and what is not written is left at its default (`Entry`).
-/
namespace CodeReview.Settings

open Number (Quantity)

/-! ## Steps -/

theorem bind_ok_iff {ε α β : Type} {x : Except ε α} {f : α → Except ε β} {b : β} :
    (x >>= f) = .ok b ↔ ∃ a, x = .ok a ∧ f a = .ok b := by
  cases x with
  | error e => exact ⟨fun h => (by cases h), fun ⟨a, h, _⟩ => (by cases h)⟩
  | ok a => exact ⟨fun h => ⟨a, rfl, h⟩, fun ⟨a', h, hf⟩ => by cases h; exact hf⟩

theorem ok_iff {ε α : Type} {a b : α} : (Except.ok a : Except ε α) = .ok b ↔ b = a :=
  ⟨fun h => (Except.ok.inj h).symm, fun h => congrArg Except.ok h.symm⟩

theorem mapError_ok_iff {ε ε' α : Type} {x : Except ε α} {f : ε → ε'} {a : α} : x.mapError f = .ok a ↔ x = .ok a := by
  cases x with
  | error e => exact ⟨fun h => (by cases h), fun h => (by cases h)⟩
  | ok a' => exact ok_iff.trans ok_iff.symm

theorem ok_some_iff {ε α : Type} {a b : α} : (Except.ok a : Except ε α) = .ok b ↔ some a = some b :=
  ok_iff.trans (eq_comm.trans Option.some_inj.symm)

/-- What is looked up by its name is what has that name, if each is found by its own. -/
theorem find?_name_iff {α : Type} {all : List α} {name : α → String} (hall : ∀ a, all.find? (name · == name a) = some a)
    {text : String} {a : α} : all.find? (name · == text) = some a ↔ text = name a := by
  refine ⟨fun h => ?_, fun h => h ▸ hall a⟩
  have hname := List.find?_some h
  exact (beq_iff_eq.1 hname).symm

/-! ## Fields -/

/-- What a field is: what its entry means, or the default if there is none. -/
def Entry {α : Type} (means : Value → α → Prop) (default : α) : Option Value → α → Prop
  | none, a => a = default
  | some v, a => means v a

/-- A number of seconds is written as a number, not as a truth value. -/
def MeansTimeout (v : Value) (q : Quantity) : Prop := v = .ofQuantity q ∧ q.isPositive = true

/-- A switch is written as a truth value or by its name. -/
def MeansSwitch (v : Value) (b : Bool) : Prop :=
  v = .bool b ∨ ∃ s, v = .text s ∧ (Text.strip s).toLower = if b then "true" else "false"

/-- A severity is written so that its name is shown, in any case. -/
def MeansSeverity (v : Value) (s : Severity) : Prop := (Text.strip v.display).toLower = s.name

def MeansPatterns (v : Value) (patterns : List String) : Prop := v = .texts patterns

def MeansFormat (v : Value) (f : ReportFormat) : Prop := v = .text f.name

section

variable {v? : Option Value}

theorem positive_ok_iff {q q' : Quantity} : readTimeout.positive q = .ok q' ↔ q = q' ∧ q'.isPositive = true := by
  unfold readTimeout.positive
  split
  · rename_i hq
    exact ⟨fun h => (by cases h; exact ⟨rfl, hq⟩), fun ⟨h, _⟩ => by rw [h]⟩
  · rename_i hq
    exact ⟨fun h => (by cases h), fun ⟨h, hq'⟩ => absurd (h ▸ hq') hq⟩

theorem ofQuantity_inj {q q' : Quantity} (h : Value.ofQuantity q = .ofQuantity q') : q = q' := by
  cases q <;> cases q' <;> cases h <;> rfl

theorem readTimeout_ok_iff {q : Quantity} : readTimeout v? = .ok q ↔ Entry MeansTimeout (.decimal 30.0) v? q := by
  have hnumber (q' : Quantity) : readTimeout.positive q' = .ok q ↔ MeansTimeout (.ofQuantity q') q := by
    rw [positive_ok_iff, MeansTimeout]
    exact and_congr_left fun _ => ⟨fun h => by rw [h], ofQuantity_inj⟩
  have hother {v : Value} (hv : ∀ q' : Quantity, v ≠ .ofQuantity q') :
      (Except.error (Invalid.timeoutSort v) : Except Invalid Quantity) = .ok q ↔ MeansTimeout v q :=
    ⟨fun h => (by cases h), fun h => absurd h.1 (hv q)⟩
  unfold readTimeout
  split
  · exact ok_iff
  · exact hnumber (.whole _)
  · exact hnumber (.decimal _)
  · rename_i v hint hfloat
    refine hother fun q' hq' => ?_
    cases q' with
    | whole n => exact hint n hq'
    | decimal x => exact hfloat x hq'

theorem readSwitch_ok_iff {name : String} {default b : Bool} :
    readSwitch name default v? = .ok b ↔ Entry MeansSwitch default v? b := by
  unfold readSwitch
  split
  · exact ok_iff
  · rename_i b'
    refine ok_iff.trans ⟨fun h => .inl (by rw [h]), fun h => ?_⟩
    rcases h with h | ⟨s, h, -⟩ <;> cases h
    rfl
  · rename_i s
    have hmeans : Entry MeansSwitch default (some (.text s)) b ↔
        (Text.strip s).toLower = if b then "true" else "false" := by
      refine ⟨fun h => ?_, fun h => .inr ⟨s, rfl, h⟩⟩
      rcases h with h | ⟨s', h, hs⟩ <;> cases h
      exact hs
    rw [hmeans]
    dsimp only
    by_cases htrue : (Text.strip s).toLower = "true"
    · rw [if_pos (beq_iff_eq.2 htrue), htrue]
      cases b <;> simp
    · rw [if_neg (by simpa using htrue)]
      by_cases hfalse : (Text.strip s).toLower = "false"
      · rw [if_pos (beq_iff_eq.2 hfalse), hfalse]
        cases b <;> simp
      · rw [if_neg (by simpa using hfalse)]
        cases b <;> simp [htrue, hfalse]
  · rename_i v hbool htext
    refine ⟨fun h => (by cases h), fun h => ?_⟩
    rcases h with rfl | ⟨s, rfl, -⟩
    · exact absurd rfl (hbool b)
    · exact absurd rfl (htext s)

theorem read_ok_iff {text : String} {s : Severity} : Severity.read text = .ok s ↔ (Text.strip text).toLower = s.name := by
  have hfind (name : String) : Severity.all.find? (·.name == name) = some s ↔ name = s.name :=
    find?_name_iff fun s => by cases s <;> rfl
  rw [← hfind, Severity.read]
  cases Severity.all.find? (·.name == (Text.strip text).toLower) with
  | none => exact ⟨fun h => (by cases h), fun h => (by cases h)⟩
  | some v => exact ok_some_iff

theorem readSeverity_ok_iff {default s : Severity} : readSeverity default v? = .ok s ↔ Entry MeansSeverity default v? s := by
  cases v? with
  | none => exact ok_iff
  | some v => exact mapError_ok_iff.trans read_ok_iff

theorem readTexts_ok_iff {name : String} : ∀ {vs : List Value} {patterns : List String},
    (vs.mapM fun v => match v with
      | .text s => (.ok s : Except Invalid String)
      | _ => .error (.notPatterns name)) = .ok patterns ↔ vs = patterns.map .text
  | [], patterns => by
    cases patterns <;> simp [pure, Except.pure]
  | v :: vs, patterns => by
    rw [List.mapM_cons, bind_ok_iff]
    simp only [bind_ok_iff, readTexts_ok_iff]
    constructor
    · rintro ⟨s, hs, ps, rfl, hps⟩
      cases hps
      split at hs <;> cases hs
      rfl
    · intro h
      cases patterns with
      | nil => cases h
      | cons s ps =>
        cases h
        exact ⟨s, rfl, ps, rfl, rfl⟩

theorem readPatterns_ok_iff {name : String} {default patterns : List String} :
    readPatterns name default v? = .ok patterns ↔ Entry MeansPatterns default v? patterns := by
  unfold readPatterns
  split
  · exact ok_iff
  · exact readTexts_ok_iff.trans ⟨fun h => congrArg Value.list h, fun h => Value.list.inj h⟩
  · rename_i v hlist
    exact ⟨fun h => (by cases h), fun h => (hlist _ h).elim⟩

theorem readFormat_ok_iff {f : ReportFormat} : readFormat v? = .ok f ↔ Entry MeansFormat .text v? f := by
  unfold readFormat
  split
  · exact ok_iff
  · rename_i s
    have hmeans : Entry MeansFormat .text (some (.text s)) f ↔ s = f.name :=
      ⟨fun h => Value.text.inj h, fun h => congrArg Value.text h⟩
    have hfind : ReportFormat.ofName? s = some f ↔ s = f.name := find?_name_iff fun f => by cases f <;> rfl
    rw [hmeans, ← hfind]
    cases ReportFormat.ofName? s with
    | none => exact ⟨fun h => (by cases h), fun h => (by cases h)⟩
    | some f' => exact ok_some_iff
  · rename_i v htext
    exact ⟨fun h => (by cases h), fun h => (htext _ h).elim⟩

end

/-! ## Sections -/

/-- What is written under a name, unless it is empty. -/
def written (data : Value) (name : String) : Option Value := (data.get? name).filter (!·.isEmpty)

def field (data : Value) (name key : String) : Option Value := (written data name).bind (·.get? key)

/-- That a section is a table, if there is one. -/
def IsSection (data : Value) (name : String) : Prop := ∀ v ∈ written data name, v.isTable = true

theorem section_ok_iff {data v : Value} {name : String} : section? data name = .ok v ↔
    IsSection data name ∧ v = (written data name).getD (.map []) := by
  rw [section?, IsSection, ← written]
  cases written data name with
  | none => exact ok_iff.trans ⟨fun h => ⟨fun _ h' => (by cases h'), h⟩, fun h => h.2⟩
  | some v' =>
    dsimp only
    split
    · rename_i ht
      exact ok_iff.trans ⟨fun h => ⟨fun _ h' => (by cases h'; exact ht), h⟩, fun h => h.2⟩
    · rename_i ht
      exact ⟨fun h => (by cases h), fun h => absurd (h.1 v' rfl) ht⟩

theorem getD_get? (data : Value) (name key : String) :
    ((written data name).getD (.map [])).get? key = field data name key := by
  rw [field]
  cases written data name <;> rfl

/-! ## The whole -/

/-- That settings are what a table says: its sections are tables, and each field is what its entry means, or its default. -/
structure Reads (data : Value) (s : Settings) : Prop where
  table : data.isTable = true
  sections : ∀ name ∈ ["analysis", "output", "ci", "rules"], IsSection data name
  timeout : Entry MeansTimeout (.decimal 30.0) (field data "analysis" "file_timeout") s.timeout
  tolerant : Entry MeansSwitch false (field data "analysis" "tolerant_parsing") s.tolerant
  minSeverity : Entry MeansSeverity .low (field data "analysis" "min_severity") s.minSeverity
  exclude : Entry MeansPatterns defaultExcludes (field data "analysis" "exclude_paths") s.selection.exclude
  include_ : Entry MeansPatterns [] (field data "analysis" "include_paths") s.selection.include_
  format : Entry MeansFormat .text (field data "output" "format") s.format
  output : s.output = (field data "output" "path").getD .null
  failOn : Entry MeansSeverity .high (field data "ci" "fail_on") s.failOn
  overrides : s.overrides = ((written data "rules").getD (.map [])).entries
  admitted : ∀ e ∈ s.overrides, RuleSet.builtin.Admits e
  rules : s.rules = RuleSet.builtin.settled s.overrides

theorem withOverrides_iff {es : Entries Value} {rules : RuleSet} :
    (RuleSet.builtin.withOverrides es).mapError Invalid.rule = .ok rules ↔
      (∀ e ∈ es, RuleSet.builtin.Admits e) ∧ rules = RuleSet.builtin.settled es :=
  mapError_ok_iff.trans RuleSet.withOverrides_ok_iff

/-- **Settings are read from a table exactly if they are what the table says.** -/
theorem ofFilled_ok_iff {data : Value} {s : Settings} : ofFilled data = .ok s ↔ Reads data s := by
  by_cases ht : data.isTable = true
  · unfold ofFilled
    simp only [ht, Bool.not_true, Bool.false_eq_true, if_false]
    -- each step says what its field is, in the order of the fields
    simp only [bind_ok_iff, section_ok_iff, readTimeout_ok_iff, readSwitch_ok_iff, readSeverity_ok_iff, readPatterns_ok_iff,
      readFormat_ok_iff, withOverrides_iff]
    constructor
    · rintro ⟨_, ⟨hanalysis, rfl⟩, timeout, htimeout, tolerant, htolerant, minSeverity, hmin, exclude, hexclude, include_,
        hinclude, _, ⟨houtput, rfl⟩, format, hformat, _, ⟨hci, rfl⟩, failOn, hfail, _, ⟨hrules, rfl⟩, rules,
        ⟨hadmitted, rfl⟩, h⟩
      cases h
      simp only [getD_get?] at htimeout htolerant hmin hexclude hinclude hformat hfail
      have hsections : ∀ name ∈ ["analysis", "output", "ci", "rules"], IsSection data name := by
        simp [hanalysis, houtput, hci, hrules]
      exact ⟨ht, hsections, htimeout, htolerant, hmin, hexclude, hinclude, hformat,
        congrArg (·.getD .null) (getD_get? data "output" "path"), hfail, rfl, hadmitted, rfl⟩
    · intro h
      have hsection (name : String) (hname : name ∈ ["analysis", "output", "ci", "rules"]) := h.sections name hname
      refine ⟨_, ⟨hsection "analysis" (by simp), rfl⟩, s.timeout, ?_, s.tolerant, ?_, s.minSeverity, ?_,
        s.selection.exclude, ?_, s.selection.include_, ?_, _, ⟨hsection "output" (by simp), rfl⟩, s.format, ?_, _,
        ⟨hsection "ci" (by simp), rfl⟩, s.failOn, ?_, _, ⟨hsection "rules" (by simp), rfl⟩, s.rules, ?_, ?_⟩
      · rw [getD_get?]
        exact h.timeout
      · rw [getD_get?]
        exact h.tolerant
      · rw [getD_get?]
        exact h.minSeverity
      · rw [getD_get?]
        exact h.exclude
      · rw [getD_get?]
        exact h.include_
      · rw [getD_get?]
        exact h.format
      · rw [getD_get?]
        exact h.failOn
      · exact h.overrides ▸ ⟨h.admitted, h.rules⟩
      · rw [getD_get?, ← h.overrides, ← h.output]
        rfl
  · have hthrow : ofFilled data = .error (.notATable data) := by
      unfold ofFilled
      simp only [ht, Bool.not_false, if_true]
      rfl
    rw [hthrow]
    exact ⟨fun h => (by cases h), fun h => absurd h.table ht⟩

end CodeReview.Settings
