import CodeReview.Proofs.Settings.Reading
/-!
# What is checked when settings are loaded

A table is read, or it is refused with one of the errors that are meant for values and never with that of a document that is
no table (`ofValue_refused`).  What is read is in range but for two fields: a timeout is only asked not to be at most zero,
which what is no number is not either, and the path of the report is not looked at (`settings_checked`).
-/
namespace CodeReview

/-! ## Numbers above zero -/

namespace Number

theorem lt_iff_unpack (x y : Float) : x < y ↔ x.toModel.unpack.lt y.toModel.unpack = true := decide_eq_true_iff

theorem le_iff_unpack (x y : Float) : x ≤ y ↔ x.toModel.unpack.le y.toModel.unpack = true := decide_eq_true_iff

theorem unpack_zero : (0.0 : Float).toModel.unpack = .zero .positive := rfl

open Float.Model (UnpackedFloat) in
theorem unpacked_cases (u : UnpackedFloat) :
    (!u.le (.zero .positive)) = ((UnpackedFloat.zero .positive).lt u || u.isNaN) ∧
      ((UnpackedFloat.zero .positive).lt u && u.isNaN) = false := by
  rcases u with (_ | _) | _ | (_ | _) | ⟨_ | _, m, e, hm⟩ <;> exact ⟨rfl, rfl⟩

/-- **A double that is not at most zero is above zero, or it is no number**, and never both. -/
theorem not_le_zero_iff (x : Float) : (¬ x ≤ 0.0 ↔ 0.0 < x ∨ x.isNaN = true) ∧ ¬ (0.0 < x ∧ x.isNaN = true) := by
  have hnan : x.isNaN = x.toModel.unpack.isNaN := rfl
  obtain ⟨hle, hnever⟩ := unpacked_cases x.toModel.unpack
  rw [lt_iff_unpack, le_iff_unpack, unpack_zero, hnan, ← Bool.or_eq_true, ← hle, Bool.not_eq_true', Bool.not_eq_true,
    ← Bool.and_eq_true, hnever]
  exact ⟨Iff.rfl, Bool.false_ne_true⟩

namespace Quantity

def IsAboveZero : Quantity → Prop
  | whole n => 0 < n
  | decimal x => 0.0 < x

def isNaN : Quantity → Bool
  | whole _ => false
  | decimal x => x.isNaN

theorem isPositive_iff (q : Quantity) : q.isPositive = true ↔ q.IsAboveZero ∨ q.isNaN = true := by
  cases q with
  | whole n => simp [isPositive, IsAboveZero, isNaN]
  | decimal x =>
    rw [isPositive, Bool.not_eq_true', decide_eq_false_iff_not]
    exact (not_le_zero_iff x).1

/-- Of what passes for positive, the numbers are above zero. -/
theorem isAboveZero_iff {q : Quantity} (h : q.isPositive = true) : q.IsAboveZero ↔ q.isNaN = false := by
  rw [← Bool.not_eq_true]
  refine ⟨fun hq hnan => ?_, fun hnan => ((isPositive_iff q).1 h).resolve_right hnan⟩
  cases q with
  | whole n => cases hnan
  | decimal x => exact (not_le_zero_iff x).2 ⟨hq, hnan⟩

end Quantity
end Number

namespace Settings

open Number (Quantity)

/-! ## Refusals -/

/-- That a step does not fail as a document does that is no table. -/
def FailsByValue {α : Type} (x : Except Invalid α) : Prop := ∀ given, x ≠ .error (.notATable given)

namespace FailsByValue

variable {α β : Type}

theorem ok (a : α) : FailsByValue (.ok a) := fun _ h => by cases h

theorem error {why : Invalid} (h : ∀ given, why ≠ .notATable given) : FailsByValue (.error why : Except Invalid α) :=
  fun given he => h given (Except.error.inj he)

theorem bind {x : Except Invalid α} {f : α → Except Invalid β} (hx : FailsByValue x) (hf : ∀ a, FailsByValue (f a)) :
    FailsByValue (x >>= f) := by
  cases x with
  | error why => exact fun given h => hx given (congrArg Except.error (Except.error.inj h))
  | ok a => exact hf a

theorem mapError {ε : Type} (x : Except ε α) {f : ε → Invalid} (hf : ∀ e given, f e ≠ .notATable given) :
    FailsByValue (x.mapError f) := by
  cases x with
  | error e => exact error (hf e)
  | ok a => exact ok a

theorem mapM {γ : Type} {f : γ → Except Invalid α} (hf : ∀ c, FailsByValue (f c)) : ∀ cs : List γ, FailsByValue (cs.mapM f)
  | [] => ok []
  | c :: cs => by
    rw [List.mapM_cons]
    exact (hf c).bind fun _ => (mapM hf cs).bind fun _ => ok _

end FailsByValue

open FailsByValue (ok error)

theorem section_fails (data : Value) (name : String) : FailsByValue (section? data name) := by
  unfold section?
  split
  · exact ok _
  · split
    · exact ok _
    · exact error nofun

theorem readTimeout_fails (v? : Option Value) : FailsByValue (readTimeout v?) := by
  have hpositive (q : Quantity) : FailsByValue (readTimeout.positive q) := by
    unfold readTimeout.positive
    split
    · exact ok _
    · exact error nofun
  unfold readTimeout
  split
  · exact ok _
  · exact hpositive _
  · exact hpositive _
  · exact error nofun

theorem readSwitch_fails (name : String) (default : Bool) (v? : Option Value) :
    FailsByValue (readSwitch name default v?) := by
  unfold readSwitch
  split
  · exact ok _
  · exact ok _
  · dsimp only
    split
    · exact ok _
    · split
      · exact ok _
      · exact error nofun
  · exact error nofun

theorem readSeverity_fails (default : Severity) (v? : Option Value) : FailsByValue (readSeverity default v?) := by
  cases v? with
  | none => exact ok _
  | some v => exact .mapError _ nofun

theorem readPatterns_fails (name : String) (default : List String) (v? : Option Value) :
    FailsByValue (readPatterns name default v?) := by
  unfold readPatterns
  split
  · exact ok _
  · refine .mapM (fun v => ?_) _
    split
    · exact ok _
    · exact error nofun
  · exact error nofun

theorem readFormat_fails (v? : Option Value) : FailsByValue (readFormat v?) := by
  unfold readFormat
  split
  · exact ok _
  · split
    · exact ok _
    · exact error nofun
  · exact error nofun

/-- **A table is refused for what is written in it.** -/
theorem ofFilled_fails {data : Value} (ht : data.isTable = true) : FailsByValue (ofFilled data) := by
  unfold ofFilled
  simp only [ht, Bool.not_true, Bool.false_eq_true, if_false]
  refine (section_fails _ _).bind fun analysis => ?_
  refine (readTimeout_fails _).bind fun timeout => (readSwitch_fails _ _ _).bind fun tolerant => ?_
  refine (readSeverity_fails _ _).bind fun minSeverity => ?_
  refine (readPatterns_fails _ _ _).bind fun exclude => (readPatterns_fails _ _ _).bind fun include_ => ?_
  refine (section_fails _ _).bind fun output => (readFormat_fails _).bind fun format => ?_
  refine (section_fails _ _).bind fun ci => (readSeverity_fails _ _).bind fun failOn => ?_
  refine (section_fails _ _).bind fun overrides => FailsByValue.bind (.mapError _ nofun) fun rules => ok _

/-! ## Variables -/

theorem map_ok {ε α β : Type} {x : Except ε α} {f : α → β} {b : β} (h : x.map f = .ok b) : ∃ a, b = f a := by
  cases x with
  | error e => cases h
  | ok a => exact ⟨a, ok_iff.1 h⟩

/-- Filling the variables of a table makes a table. -/
theorem fill_isTable {env : Environment} {v filled : Value} (h : fill env v = .ok filled) : filled.isTable = v.isTable := by
  cases v with
  | text s => obtain ⟨_, rfl⟩ := map_ok h; rfl
  | list vs => obtain ⟨_, rfl⟩ := map_ok h; rfl
  | map es => obtain ⟨_, rfl⟩ := map_ok h; rfl
  | keyed es => obtain ⟨_, rfl⟩ := map_ok h; rfl
  | _ => cases h; rfl

theorem ofValue_ok_iff {env : Environment} {data : Value} {s : Settings} :
    ofValue env data = .ok s ↔ ∃ filled, fill env data = .ok filled ∧ Reads filled s := by
  simp only [ofValue, bind_ok_iff, mapError_ok_iff, ofFilled_ok_iff]

theorem ofValue_refused (env : Environment) {data : Value} (ht : data.isTable = true) : FailsByValue (ofValue env data) := by
  rw [ofValue]
  cases hfill : fill env data with
  | error u => exact error nofun
  | ok filled => exact ofFilled_fails ((fill_isTable hfill).trans ht)

/-! ## Ranges -/

/-- That settings are in range: a file has some time, severities and format are read back from their names, the report goes
to a path or to none, and the rules follow again from the overrides. -/
structure InRange (s : Settings) : Prop where
  timeout : s.timeout.IsAboveZero
  severities : ∀ severity ∈ [s.minSeverity, s.failOn],
    severity.name.toLower = severity.name ∧ Severity.read severity.name = .ok severity
  format : ReportFormat.ofName? s.format.name = some s.format
  output : s.output = .null ∨ ∃ path, s.output = .text path
  rules : RuleSet.builtin.withOverrides s.overrides = .ok s.rules

theorem name_read (severity : Severity) :
    severity.name.toLower = severity.name ∧ Severity.read severity.name = .ok severity := by
  rw [read_ok_iff]
  cases severity <;> decide +kernel

theorem ofName?_name (f : ReportFormat) : ReportFormat.ofName? f.name = some f := by cases f <;> rfl

theorem Entry.imp {α : Type} {means : Value → α → Prop} {default a : α} {v? : Option Value} {P : α → Prop}
    (h : Entry means default v? a) (hdefault : P default) (hmeans : ∀ v, means v a → P a) : P a := by
  cases v? with
  | none => exact h ▸ hdefault
  | some v => exact hmeans v h

/-- **Settings that are read are in range but for two fields**: what is no number passes for a timeout, and anything for a
path. -/
theorem Reads.inRange_iff {data : Value} {s : Settings} (h : Reads data s) :
    s.InRange ↔ s.timeout.isNaN = false ∧ (s.output = .null ∨ ∃ path, s.output = .text path) := by
  have hdefault : (Quantity.decimal 30.0).isPositive = true := rfl
  have hpositive : s.timeout.isPositive = true :=
    h.timeout.imp (P := fun q => q.isPositive = true) hdefault fun _ hv => hv.2
  rw [← Quantity.isAboveZero_iff hpositive]
  refine ⟨fun hs => ⟨hs.timeout, hs.output⟩, fun ⟨htimeout, houtput⟩ => ⟨htimeout, fun severity _ => name_read severity,
    ofName?_name s.format, houtput, RuleSet.withOverrides_ok_iff.2 ⟨h.admitted, h.rules⟩⟩⟩

/-- **Loading settings checks all fields but two.**  A table, in any environment, is refused for what is written in it, or it
is read as what it says; and what is read is in range, unless the timeout is no number or the path of the report is neither
null nor a text, which are not refused. -/
theorem settings_checked (env : Environment) (data : Value) (ht : data.isTable = true) :
    (∀ why, ofValue env data = .error why → ∀ given, why ≠ .notATable given) ∧
    (∀ s, ofValue env data = .ok s ↔ ∃ filled, fill env data = .ok filled ∧ Reads filled s) ∧
    ∀ s, ofValue env data = .ok s →
      (s.InRange ↔ s.timeout.isNaN = false ∧ (s.output = .null ∨ ∃ path, s.output = .text path)) := by
  refine ⟨fun why h given hgiven => ofValue_refused env ht given (hgiven ▸ h), fun s => ofValue_ok_iff, fun s h => ?_⟩
  obtain ⟨filled, -, hreads⟩ := ofValue_ok_iff.1 h
  exact hreads.inRange_iff

def withPath (path : Value) : Value := .map [("output", .map [("path", path)])]

/-- A path that is a text is in range. -/
theorem text_as_path : ∃ s, ofValue (fun _ => none) (withPath (.text "report.md")) = .ok s ∧ s.InRange := by
  obtain ⟨s, h, htimeout, houtput⟩ : ∃ s, ofValue (fun _ => none) (withPath (.text "report.md")) = .ok s ∧
      s.timeout.isNaN = false ∧ s.output = .text "report.md" := ⟨_, rfl, rfl, rfl⟩
  exact ⟨s, h, ((settings_checked (fun _ => none) (withPath (.text "report.md")) rfl).2.2 s h).2
    ⟨htimeout, .inr ⟨_, houtput⟩⟩⟩

/-- A path that is a number is read, and not in range. -/
theorem number_as_path : ∃ s, ofValue (fun _ => none) (withPath (.int 5)) = .ok s ∧ s.output = .int 5 ∧ ¬ s.InRange := by
  refine ⟨_, rfl, rfl, fun h => ?_⟩
  rcases h.output with h | ⟨path, h⟩ <;> cases h

/-- A timeout that is no number is read as well. -/
example : ∃ s, ofValue (fun _ => none) (.map [("analysis", .map [("file_timeout", .float (0.0 / 0.0))])]) = .ok s ∧
    s.timeout.isNaN = true := ⟨_, rfl, rfl⟩

end Settings
end CodeReview
