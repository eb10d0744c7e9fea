import CodeReview.Calendar.Iso
import CodeReview.Proofs.Calendar.Days
import CodeReview.Proofs.Number.Numerals
import Mathlib.Data.List.Lex
/-!
# The text of a date and a time

A label is made of fields of fixed widths, the largest unit first.  Such texts have the order of their fields
(`spell_lt_iff`), so that labels of years with four digits have the order of the seconds that they show
(`label_le_iff`), and labels of any two years show the same second only if they are the same (`label_eq_iff`).
-/
namespace CodeReview

/-! ## Numbers of fixed width -/

theorem append_lt_append_iff : ∀ {xs ys us vs : List Char}, xs.length = ys.length →
    (xs ++ us < ys ++ vs ↔ xs < ys ∨ (xs = ys ∧ us < vs))
  | [], [], us, vs, _ => by simp
  | x :: xs, y :: ys, us, vs, h => by
    have ih : xs ++ us < ys ++ vs ↔ xs < ys ∨ (xs = ys ∧ us < vs) := append_lt_append_iff (Nat.succ.inj h)
    rw [List.cons_append, List.cons_append, List.cons_lt_cons_iff, List.cons_lt_cons_iff, ih, List.cons.injEq]
    tauto

namespace Calendar

def digits : (width n : Nat) → List Char
  | 0, _ => []
  | width + 1, n => digits width (n / 10) ++ [Nat.digitChar (n % 10)]

theorem length_digits : ∀ width n : Nat, (digits width n).length = width
  | 0, _ => rfl
  | width + 1, n => by rw [digits, List.length_append, length_digits]; rfl

theorem digits_zero : ∀ width : Nat, digits width 0 = List.replicate width '0'
  | 0 => rfl
  | width + 1 => by
    rw [digits, Nat.zero_div, digits_zero width, List.replicate_succ']
    rfl

theorem padded_eq_digits : ∀ {width n : Nat}, n < 10 ^ (width + 1) →
    List.replicate (width + 1 - (Nat.toDigits 10 n).length) '0' ++ Nat.toDigits 10 n = digits (width + 1) n
  | width, n, h => by
    rw [Nat.toDigits_eq_if (by decide), digits]
    split
    · rename_i hn
      rw [Nat.div_eq_of_lt hn, digits_zero, Nat.mod_eq_of_lt hn]
      rfl
    · rename_i hn
      cases width with
      | zero => omega
      | succ width =>
        have hshort : n / 10 < 10 ^ (width + 1) := by rw [Nat.pow_succ] at h; omega
        have ih := padded_eq_digits hshort
        rw [← ih, List.length_append, List.length_singleton, Nat.add_sub_add_right, List.append_assoc]

theorem zeros_toList {width n : Nat} (h : n < 10 ^ (width + 1)) : (zeros (width + 1) n).toList = digits (width + 1) n := by
  have hdigits : (toString n).toList = Nat.toDigits 10 n := Nat.toList_repr
  rw [← padded_eq_digits h, zeros, Text.padLeft, String.toList_append, String.toList_ofList, hdigits, ← String.length_toList,
    hdigits]

theorem digitChar_lt_iff {m n : Nat} (hm : m < 10) (hn : n < 10) : [Nat.digitChar m] < [Nat.digitChar n] ↔ m < n :=
  (by decide : ∀ m < 10, ∀ n < 10, ([Nat.digitChar m] < [Nat.digitChar n] ↔ m < n)) m hm n hn

theorem digits_lt_iff : ∀ {width m n : Nat}, m < 10 ^ width → n < 10 ^ width → (digits width m < digits width n ↔ m < n)
  | 0, m, n, hm, hn => by
    have hzero : m = 0 ∧ n = 0 := by omega
    simp [hzero, digits]
  | width + 1, m, n, hm, hn => by
    rw [Nat.pow_succ] at hm hn
    have hm' : m / 10 < 10 ^ width := by omega
    have hn' : n / 10 < 10 ^ width := by omega
    have hless := digits_lt_iff hm' hn'
    have hgreater := digits_lt_iff hn' hm'
    have hlength : (digits width (m / 10)).length = (digits width (n / 10)).length := by
      rw [length_digits, length_digits]
    have hlast := digitChar_lt_iff (Nat.mod_lt m (by decide : 0 < 10)) (Nat.mod_lt n (by decide : 0 < 10))
    rw [digits, digits, append_lt_append_iff hlength, hless, hlast]
    -- the leading digits tell, and among equal ones the last digit
    rcases Nat.lt_trichotomy (m / 10) (n / 10) with h | h | h
    · exact iff_of_true (.inl h) (by omega)
    · rw [h]
      simp only [true_and]
      omega
    · have hne : digits width (m / 10) ≠ digits width (n / 10) := fun heq => List.lt_irrefl _ (heq ▸ hgreater.2 h)
      have hnot : ¬ m / 10 < n / 10 := Nat.lt_asymm h
      exact iff_of_false (fun h' => h'.elim hnot fun hsame => hne hsame.1) (by omega)

/-! ## Fields -/

/-- Fields of given widths, each with what stands behind it. -/
def spell : List (Nat × List Char) → List Nat → List Char
  | (width, behind) :: fields, n :: ns => digits width n ++ (behind ++ spell fields ns)
  | _, _ => []

def Fits : List (Nat × List Char) → List Nat → Prop
  | [], [] => True
  | (width, _) :: fields, n :: ns => n < 10 ^ width ∧ Fits fields ns
  | _, _ => False

theorem digits_injective {width m n : Nat} (hm : m < 10 ^ width) (hn : n < 10 ^ width) (h : digits width m = digits width n) :
    m = n := by
  have hless := mt (digits_lt_iff hm hn).2 (h ▸ List.lt_irrefl _)
  have hgreater := mt (digits_lt_iff hn hm).2 (h ▸ List.lt_irrefl _)
  omega

/-- **Texts of fields have the order of their fields.** -/
theorem spell_lt_iff : ∀ {fields : List (Nat × List Char)} {ms ns : List Nat}, Fits fields ms → Fits fields ns →
    (spell fields ms < spell fields ns ↔ ms < ns)
  | [], [], [], _, _ => by simp [spell]
  | (width, behind) :: fields, m :: ms, n :: ns, hm, hn => by
    have ih := spell_lt_iff hm.2 hn.2
    have hlength : (digits width m).length = (digits width n).length := by rw [length_digits, length_digits]
    have hsame : digits width m = digits width n ↔ m = n := ⟨digits_injective hm.1 hn.1, congrArg _⟩
    rw [spell, spell, append_lt_append_iff hlength, append_lt_append_iff rfl, digits_lt_iff hm.1 hn.1, ih, hsame,
      List.cons_lt_cons_iff]
    simp only [List.lt_irrefl, false_or, true_and]

theorem spell_injective {fields : List (Nat × List Char)} {ms ns : List Nat} (hm : Fits fields ms) (hn : Fits fields ns)
    (h : spell fields ms = spell fields ns) : ms = ns := by
  rcases lt_trichotomy ms ns with hlt | heq | hlt
  · exact absurd ((spell_lt_iff hm hn).2 hlt) (h ▸ List.lt_irrefl _)
  · exact heq
  · exact absurd ((spell_lt_iff hn hm).2 hlt) (h ▸ List.lt_irrefl _)

/-! ## Labels -/

def fieldsOfLabel : List (Nat × List Char) := [(2, ['-']), (2, [' ']), (2, [':']), (2, [':']), (2, [' ', 'U', 'T', 'C'])]

namespace Moment

def numbers (m : Moment) : List Nat :=
  [m.date.month, m.date.day, m.seconds / 3600, m.seconds / 60 % 60, m.seconds % 60]

/-- The second that a label shows, if it is read as one of UTC. -/
def secondShown (m : Moment) : Int := m.date.toDays * 86400 + m.seconds

/-- That a moment shows a day of the calendar and a time of day. -/
structure IsReal (m : Moment) : Prop where
  date : m.date.IsReal
  seconds : m.seconds < 86400

variable {m m' : Moment}

theorem IsReal.fits (h : m.IsReal) : Fits fieldsOfLabel m.numbers := by
  have hmonth := h.date.month_le
  have hseconds := h.seconds
  have hday : m.date.day ≤ 31 := h.date.day_le.trans (by unfold daysInMonth; split_ifs <;> decide)
  refine ⟨?_, ?_, ?_, ?_, ?_, trivial⟩ <;> omega

theorem IsReal.label_toList (h : m.IsReal) :
    m.label.toList = (toString m.date.year).toList ++ '-' :: spell fieldsOfLabel m.numbers := by
  obtain ⟨hmonth, hday, hhour, hminute, hsecond, -⟩ := h.fits
  simp only [label, clockText, String.toList_append, zeros_toList hmonth, zeros_toList hday, zeros_toList hhour,
    zeros_toList hminute, zeros_toList hsecond]
  simp [fieldsOfLabel, numbers, spell]

theorem date_eq {d d' : Date} (hyear : d.year = d'.year) (hmonth : d.month = d'.month) (hday : d.day = d'.day) : d = d' := by
  cases d
  cases d'
  rw [Date.mk.injEq]
  exact ⟨hyear, hmonth, hday⟩

theorem secondShown_lt_of_numbers (h : m.IsReal) (h' : m'.IsReal)
    (hlt : m.date.year < m'.date.year ∨ (m.date.year = m'.date.year ∧ m.numbers < m'.numbers)) :
    m.secondShown < m'.secondShown := by
  have hseconds := h.seconds
  have hseconds' := h'.seconds
  simp only [numbers, List.cons_lt_cons_iff, List.lt_irrefl, and_false, or_false] at hlt
  unfold secondShown
  by_cases hdate : m.date = m'.date
  · rw [hdate] at hlt ⊢
    omega
  · have hne : ¬ (m.date.year = m'.date.year ∧ m.date.month = m'.date.month ∧ m.date.day = m'.date.day) :=
      fun hsame => hdate (date_eq hsame.1 hsame.2.1 hsame.2.2)
    have hdays : m.date.toDays < m'.date.toDays := toDays_lt_toDays h.date h'.date (by omega)
    omega

theorem secondShown_eq_of_numbers (hyear : m.date.year = m'.date.year) (h : m.numbers = m'.numbers) :
    m.secondShown = m'.secondShown := by
  simp only [numbers, List.cons.injEq, and_true] at h
  obtain ⟨hmonth, hday, hhour, hminute, hsecond⟩ := h
  rw [secondShown, secondShown, date_eq hyear hmonth hday]
  omega

/-- **The second that is shown** has the order of the years and then of the numbers. -/
theorem secondShown_lt_iff (h : m.IsReal) (h' : m'.IsReal) : m.secondShown < m'.secondShown ↔
    m.date.year < m'.date.year ∨ (m.date.year = m'.date.year ∧ m.numbers < m'.numbers) := by
  refine ⟨fun hlt => ?_, secondShown_lt_of_numbers h h'⟩
  have hnot : ¬ (m'.date.year < m.date.year ∨ (m'.date.year = m.date.year ∧ m'.numbers < m.numbers)) := fun hgt => by
    have := secondShown_lt_of_numbers h' h hgt
    omega
  rcases lt_trichotomy m.date.year m'.date.year with hyear | hyear | hyear
  · exact .inl hyear
  · rcases lt_trichotomy m.numbers m'.numbers with hnumbers | hnumbers | hnumbers
    · exact .inr ⟨hyear, hnumbers⟩
    · exact absurd (secondShown_eq_of_numbers hyear hnumbers) hlt.ne
    · exact absurd (.inr ⟨hyear.symm, hnumbers⟩) hnot
  · exact absurd (.inl hyear) hnot

theorem year_toList {year : Int} (hyear : 1000 ≤ year) (hyear' : year ≤ 9999) :
    (toString year).toList = digits 4 year.toNat := by
  have hnat : year.natAbs = year.toNat := by omega
  have hshort := Nat.length_toDigits_le_iff (b := 10) (n := year.toNat) (k := 3) (by decide) (by decide)
  rw [Number.toString_toList, if_neg (by omega), hnat, ← padded_eq_digits (by omega), List.nil_append]
  rw [Nat.sub_eq_zero_of_le (by omega)]
  rfl

/-- **Labels of years with four digits have the order of the seconds that they show.** -/
theorem label_lt_iff (h : m.IsReal) (h' : m'.IsReal) (hyear : 1000 ≤ m.date.year ∧ m.date.year ≤ 9999)
    (hyear' : 1000 ≤ m'.date.year ∧ m'.date.year ≤ 9999) : m.label < m'.label ↔ m.secondShown < m'.secondShown := by
  have hlength : (digits 4 m.date.year.toNat).length = (digits 4 m'.date.year.toNat).length := by
    rw [length_digits, length_digits]
  have hfits : m.date.year.toNat < 10 ^ 4 := by omega
  have hfits' : m'.date.year.toNat < 10 ^ 4 := by omega
  have hless : m.date.year.toNat < m'.date.year.toNat ↔ m.date.year < m'.date.year := by omega
  have hsame : digits 4 m.date.year.toNat = digits 4 m'.date.year.toNat ↔ m.date.year = m'.date.year :=
    ⟨fun heq => by have := digits_injective hfits hfits' heq; omega, fun heq => by rw [heq]⟩
  have hirrefl : ¬ '-' < '-' := by decide
  rw [String.lt_iff, h.label_toList, h'.label_toList, year_toList hyear.1 hyear.2, year_toList hyear'.1 hyear'.2,
    append_lt_append_iff hlength, List.cons_lt_cons_iff, digits_lt_iff hfits hfits', spell_lt_iff h.fits h'.fits, hless, hsame,
    secondShown_lt_iff h h']
  simp only [hirrefl, false_or, true_and]

theorem label_le_iff (h : m.IsReal) (h' : m'.IsReal) (hyear : 1000 ≤ m.date.year ∧ m.date.year ≤ 9999)
    (hyear' : 1000 ≤ m'.date.year ∧ m'.date.year ≤ 9999) : m.label ≤ m'.label ↔ m.secondShown ≤ m'.secondShown := by
  rw [← String.not_lt, label_lt_iff h' h hyear' hyear, Int.not_lt]

theorem digit_ne_hyphen {c : Char} {n : Nat} (hc : c ∈ Nat.toDigits 10 n) : c ≠ '-' := by
  have hdigit := Nat.isDigit_of_mem_toDigits (by decide) (by decide) hc
  rintro rfl
  revert hdigit
  decide

theorem eq_around_hyphen : ∀ {xs xs' ys ys' : List Char}, (∀ c ∈ xs, c ≠ '-') → (∀ c ∈ xs', c ≠ '-') →
    xs ++ '-' :: ys = xs' ++ '-' :: ys' → xs = xs' ∧ ys = ys'
  | [], [], _, _, _, _, h => ⟨rfl, (List.cons.inj h).2⟩
  | [], _ :: _, _, _, _, hxs', h => absurd (List.cons.inj h).1.symm (hxs' _ List.mem_cons_self)
  | _ :: _, [], _, _, hxs, _, h => absurd (List.cons.inj h).1 (hxs _ List.mem_cons_self)
  | _ :: _, _ :: _, _, _, hxs, hxs', h => by
    obtain ⟨hhead, htail⟩ := List.cons.inj h
    obtain ⟨hbefore, hbehind⟩ := eq_around_hyphen (fun c hc => hxs c (List.mem_cons_of_mem _ hc))
      (fun c hc => hxs' c (List.mem_cons_of_mem _ hc)) htail
    exact ⟨by rw [hhead, hbefore], hbehind⟩

theorem IsReal.date_eq (h : m.IsReal) : m.date = Date.ofDays (m.secondShown / 86400) := by
  have hseconds := h.seconds
  have hday : m.secondShown / 86400 = m.date.toDays := by
    rw [secondShown]
    omega
  rw [hday, ofDays_toDays h.date]

theorem IsReal.seconds_eq (h : m.IsReal) : (m.seconds : Int) = m.secondShown % 86400 := by
  have hseconds := h.seconds
  rw [secondShown]
  omega

/-- **Labels are the same just if they show the same second.** -/
theorem label_eq_iff (h : m.IsReal) (h' : m'.IsReal) (hyear : 0 ≤ m.date.year) (hyear' : 0 ≤ m'.date.year) :
    m.label = m'.label ↔ m.secondShown = m'.secondShown := by
  constructor
  · intro heq
    have hdigits : ∀ {y : Int}, 0 ≤ y → (toString y).toList = Nat.toDigits 10 y.natAbs := fun hy => by
      rw [Number.toString_toList, if_neg (by omega), List.nil_append]
    have hchars := congrArg String.toList heq
    rw [h.label_toList, h'.label_toList, hdigits hyear, hdigits hyear'] at hchars
    obtain ⟨hyears, hnumbers⟩ := eq_around_hyphen (fun _ => digit_ne_hyphen) (fun _ => digit_ne_hyphen) hchars
    have hsame := Number.toDigits_injective hyears
    exact secondShown_eq_of_numbers (by omega) (spell_injective h.fits h'.fits hnumbers)
  · intro heq
    have hseconds := h.seconds_eq
    rw [heq, ← h'.seconds_eq] at hseconds
    rw [label, label, h.date_eq, h'.date_eq, heq, Int.ofNat.inj hseconds]

end Moment
end Calendar
end CodeReview
