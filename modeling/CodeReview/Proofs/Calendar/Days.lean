import CodeReview.Calendar.Date
import Mathlib.Data.Int.ConditionallyCompleteOrder
import Mathlib.Tactic.IntervalCases
/-!
# Days and dates

Each day has one date and each date is one day (`ofDays_toDays`, `toDays_ofDays`), and later dates are later days
(`toDays_lt_toDays`).  The years that begin in March carry this: in an era of 400 of them a day is a year and a day of that
year, of which only leap years have the last (`IsDayOfYear`).
-/
namespace CodeReview.Calendar

/-- That a date is one of the calendar, in any year. -/
structure Date.IsReal (d : Date) : Prop where
  month_pos : 1 ≤ d.month
  month_le : d.month ≤ 12
  day_pos : 1 ≤ d.day
  day_le : d.day ≤ daysInMonth d.year d.month

theorem Date.isValid_iff {d : Date} : d.isValid = true ↔ (1 ≤ d.year ∧ d.year ≤ 9999) ∧ d.IsReal := by
  simp only [Date.isValid, Bool.and_eq_true, decide_eq_true_eq]
  constructor
  · rintro ⟨⟨⟨⟨⟨hy, hy'⟩, hm⟩, hm'⟩, hd⟩, hd'⟩
    exact ⟨⟨hy, hy'⟩, hm, hm', hd, hd'⟩
  · rintro ⟨⟨hy, hy'⟩, hm, hm', hd, hd'⟩
    exact ⟨⟨⟨⟨⟨hy, hy'⟩, hm⟩, hm'⟩, hd⟩, hd'⟩

theorem isLeap_iff (y : Int) : isLeap y = true ↔ y % 4 = 0 ∧ (y % 100 ≠ 0 ∨ y % 400 = 0) := by
  simp only [isLeap, Bool.and_eq_true, Bool.or_eq_true, beq_iff_eq, bne_iff_ne]

/-! ## Years of an era -/

/-- The days of an era before a year of it. -/
def yearStart (year : Int) : Int := 365 * year + year / 4 - year / 100

/-- That a year of an era has a day, both counted from zero: the last one only if the year is a leap year. -/
structure IsDayOfYear (year day : Int) : Prop where
  year_nonneg : 0 ≤ year
  year_lt : year < 400
  day_nonneg : 0 ≤ day
  day_lt : day < 366
  leap : day = 365 → year % 4 = 3 ∧ (year % 100 ≠ 99 ∨ year = 399)

/-- The year of a day of an era, as `Date.ofDays` computes it. -/
def yearOf (dayOfEra : Int) : Int := (dayOfEra - dayOfEra / 1460 + dayOfEra / 36524 - dayOfEra / 146096) / 365

theorem yearStart_centuries {c q y : Int} (hq : 0 ≤ q ∧ q < 25) (hy : 0 ≤ y ∧ y < 4) :
    yearStart (100 * c + 4 * q + y) = 36524 * c + 1461 * q + 365 * y := by
  have hfour : (100 * c + 4 * q + y) / 4 = 25 * c + q := by omega
  have hhundred : (100 * c + 4 * q + y) / 100 = c := by omega
  rw [yearStart, hfour, hhundred]
  omega

theorem yearOf_centuries {c q y day : Int} (hc : 0 ≤ c ∧ c < 4) (hq : 0 ≤ q ∧ q < 25) (hy : 0 ≤ y ∧ y < 4)
    (hday : 0 ≤ day ∧ day < 366) (hleap : day = 365 → y = 3 ∧ (q < 24 ∨ c = 3)) :
    yearOf (36524 * c + 1461 * q + 365 * y + day) = 100 * c + 4 * q + y := by
  unfold yearOf
  generalize hn : 36524 * c + 1461 * q + 365 * y + day = n
  by_cases hlast : n = 146096
  · omega
  have hera : n / 146096 = 0 := by omega
  have hcentury : n / 36524 = c := by omega
  rw [hera, hcentury]
  -- the days that are left over from four years add up to less than one such span
  by_cases h : 1460 ≤ 24 * c + q + 365 * y + day
  · have hspans : n / 1460 = 25 * c + q + 1 := by omega
    omega
  · have hspans : n / 1460 = 25 * c + q := by omega
    omega

theorem IsDayOfYear.yearOf_eq {year day : Int} (h : IsDayOfYear year day) : yearOf (yearStart year + day) = year := by
  obtain ⟨hpos, hlt, hday, hday', hleap⟩ := h
  have hyear : year = 100 * (year / 100) + 4 * (year % 100 / 4) + year % 4 := by omega
  rw [hyear, yearStart_centuries (by omega) (by omega), yearOf_centuries (by omega) (by omega) (by omega) ⟨hday, hday'⟩
    (by omega)]

theorem IsDayOfYear.lt_era {year day : Int} (h : IsDayOfYear year day) :
    0 ≤ yearStart year + day ∧ yearStart year + day < 146097 := by
  obtain ⟨hpos, hlt, hday, hday', hleap⟩ := h
  unfold yearStart
  omega

/-- **Each day of an era is a day of a year.** -/
theorem exists_isDayOfYear {n : Int} (hn : 0 ≤ n) (hn' : n < 146097) :
    ∃ year day, IsDayOfYear year day ∧ n = yearStart year + day := by
  have hc : ∃ c r, 0 ≤ c ∧ c < 4 ∧ 0 ≤ r ∧ r ≤ 36524 ∧ (r = 36524 → c = 3) ∧ n = 36524 * c + r := by
    by_cases hlast : n = 146096
    · exact ⟨3, 36524, by omega⟩
    · exact ⟨n / 36524, n % 36524, by omega⟩
  obtain ⟨c, r, hc0, hc4, hr0, hr, hrc, rfl⟩ := hc
  have hy : ∃ y d, 0 ≤ y ∧ y < 4 ∧ 0 ≤ d ∧ d ≤ 365 ∧ (d = 365 → y = 3) ∧ r % 1461 = 365 * y + d := by
    by_cases hlast : r % 1461 = 1460
    · exact ⟨3, 365, by omega⟩
    · exact ⟨r % 1461 / 365, r % 1461 % 365, by omega⟩
  obtain ⟨y, d, hy0, hy4, hd0, hd, hdy, hr'⟩ := hy
  refine ⟨100 * c + 4 * (r / 1461) + y, d, ⟨by omega, by omega, hd0, by omega, by omega⟩, ?_⟩
  rw [yearStart_centuries (by omega) ⟨hy0, hy4⟩]
  omega

/-! ## Months of a year -/

/-- The days before a month of a year that begins in March, with March as month zero. -/
def monthStart (month : Int) : Int := (153 * month + 2) / 5

def Date.fromMarch (d : Date) : Int := ((d.month : Int) + 9) % 12

def Date.marchYear (d : Date) : Int := if d.month ≤ 2 then d.year - 1 else d.year

def Date.dayOfYear (d : Date) : Int := monthStart d.fromMarch + d.day - 1

/-- **A day's number**, from the eras, years and months that begin with March. -/
theorem Date.toDays_eq (d : Date) : d.toDays =
    d.marchYear / 400 * 146097 + (yearStart (d.marchYear - d.marchYear / 400 * 400) + d.dayOfYear) - 719468 := by
  simp (disch := decide) only [Date.toDays, Int.fdiv_eq_ediv_of_nonneg]
  simp only [Date.marchYear, Date.dayOfYear, Date.fromMarch, yearStart, monthStart]
  omega

/-- **The month of a day of a year** is the one that has begun while the next one has not. -/
theorem month_eq_iff {m n : Int} : (5 * n + 2) / 153 = m ↔ monthStart m ≤ n ∧ n < monthStart (m + 1) := by
  unfold monthStart
  omega

theorem daysInMonth_two (year : Int) : daysInMonth year 2 = if isLeap year = true then 29 else 28 := rfl

theorem daysInMonth_eq {month : Nat} (hm : 1 ≤ month) (hm' : month ≤ 12) (h : month ≠ 2) (year : Int) :
    (daysInMonth year month : Int) =
      monthStart (((month : Int) + 9) % 12 + 1) - monthStart (((month : Int) + 9) % 12) := by
  interval_cases month <;> first | contradiction | rfl

theorem Date.IsReal.dayOfYear_lt {d : Date} (h : d.IsReal) : d.dayOfYear < monthStart (d.fromMarch + 1) := by
  obtain ⟨hm, hm', hd, hd'⟩ := h
  by_cases htwo : d.month = 2
  · rw [htwo, daysInMonth_two] at hd'
    have hday : d.day ≤ 29 := by split_ifs at hd' <;> omega
    simp only [dayOfYear, fromMarch, monthStart, htwo]
    omega
  · have hdays := daysInMonth_eq hm hm' htwo d.year
    simp only [dayOfYear, fromMarch]
    omega

/-- **A date is a day of its year from March**: the last one only in a year that ends with a leap day. -/
theorem Date.IsReal.isDayOfYear {d : Date} (h : d.IsReal) :
    IsDayOfYear (d.marchYear - d.marchYear / 400 * 400) d.dayOfYear := by
  have hlt := h.dayOfYear_lt
  obtain ⟨hm, hm', hd, hd'⟩ := h
  have hstart : 0 ≤ d.dayOfYear := by simp only [dayOfYear, fromMarch, monthStart]; omega
  by_cases htwo : d.month = 2
  · rw [htwo, daysInMonth_two] at hd'
    have hyear : d.marchYear = d.year - 1 := if_pos (by omega)
    have hday : d.dayOfYear = 336 + d.day := by simp only [dayOfYear, fromMarch, monthStart, htwo]; omega
    have hleap := isLeap_iff d.year
    rw [hyear, hday]
    split_ifs at hd' with hl
    · rw [hleap] at hl
      exact ⟨by omega, by omega, by omega, by omega, by omega⟩
    · exact ⟨by omega, by omega, by omega, by omega, by omega⟩
  · have hlast : d.dayOfYear < 365 := by simp only [fromMarch, monthStart] at hlt; omega
    exact ⟨by omega, by omega, hstart, by omega, by omega⟩

def dateOf (year day : Int) : Date :=
  let month := (5 * day + 2) / 153
  ⟨if month < 10 then year else year + 1, (if month < 10 then month + 3 else month - 9).toNat,
    (day - monthStart month + 1).toNat⟩

theorem dateOf_dayOfYear {d : Date} (h : d.IsReal) : dateOf d.marchYear d.dayOfYear = d := by
  have hlt := h.dayOfYear_lt
  obtain ⟨hm, hm', hd, hd'⟩ := h
  have hmonth : (5 * d.dayOfYear + 2) / 153 = d.fromMarch := by
    have hle : monthStart d.fromMarch ≤ d.dayOfYear := by rw [Date.dayOfYear]; omega
    exact month_eq_iff.2 ⟨hle, hlt⟩
  obtain ⟨year, month, day⟩ := d
  simp only [dateOf, hmonth, Date.mk.injEq]
  simp only [Date.dayOfYear, Date.fromMarch, Date.marchYear] at hm hm' hd ⊢
  refine ⟨?_, ?_, by omega⟩
  · split_ifs <;> omega
  · split_ifs <;> omega

/-- **The date of a day's number** is that of its year and day. -/
theorem ofDays_eq {era year day : Int} (h : IsDayOfYear year day) :
    Date.ofDays (era * 146097 + (yearStart year + day) - 719468) = dateOf (year + era * 400) day := by
  have hera := h.lt_era
  have hyear := h.yearOf_eq
  have hdiv : (era * 146097 + (yearStart year + day)) / 146097 = era := by omega
  have hmod : era * 146097 + (yearStart year + day) - era * 146097 = yearStart year + day := by omega
  have hday : yearStart year + day - (365 * year + year / 4 - year / 100) = day := by rw [yearStart]; omega
  have hmonth : (if (if (5 * day + 2) / 153 < 10 then (5 * day + 2) / 153 + 3 else (5 * day + 2) / 153 - 9) ≤ 2
      then year + era * 400 + 1 else year + era * 400) =
      if (5 * day + 2) / 153 < 10 then year + era * 400 else year + era * 400 + 1 := by
    obtain ⟨-, -, hpos, hlt, -⟩ := h
    split_ifs <;> omega
  unfold yearOf at hyear
  simp (disch := decide) only [Date.ofDays, Int.fdiv_eq_ediv_of_nonneg, Int.sub_add_cancel, hdiv, hmod, hyear, hday, hmonth]
  rfl

/-- **The date of the day of a date is that date.** -/
theorem ofDays_toDays {d : Date} (h : d.IsReal) : Date.ofDays d.toDays = d := by
  rw [Date.toDays_eq, ofDays_eq h.isDayOfYear, Int.sub_add_cancel, dateOf_dayOfYear h]

theorem marchYear_dateOf {year day : Int} (hday : 0 ≤ day) (hday' : day < 366) : (dateOf year day).marchYear = year := by
  simp only [dateOf, Date.marchYear]
  split_ifs <;> omega

theorem fromMarch_dateOf {year day : Int} (hday : 0 ≤ day) (hday' : day < 366) :
    (dateOf year day).fromMarch = (5 * day + 2) / 153 := by
  simp only [dateOf, Date.fromMarch]
  split_ifs <;> omega

theorem dayOfYear_dateOf {year day : Int} (hday : 0 ≤ day) (hday' : day < 366) : (dateOf year day).dayOfYear = day := by
  have hle : monthStart ((5 * day + 2) / 153) ≤ day := (month_eq_iff.1 rfl).1
  rw [Date.dayOfYear, fromMarch_dateOf hday hday']
  simp only [dateOf]
  omega

theorem dateOf_isReal {year day : Int} (h : IsDayOfYear (year % 400) day) : (dateOf year day).IsReal := by
  obtain ⟨-, -, hday, hday', hleap⟩ := h
  have hyear : (dateOf year day).marchYear = year := marchYear_dateOf hday hday'
  have hmonth : (dateOf year day).fromMarch = (5 * day + 2) / 153 := fromMarch_dateOf hday hday'
  have hdayOfYear : (dateOf year day).dayOfYear = day := dayOfYear_dateOf hday hday'
  obtain ⟨hle, hnext⟩ : monthStart ((5 * day + 2) / 153) ≤ day ∧ day < monthStart ((5 * day + 2) / 153 + 1) :=
    month_eq_iff.1 rfl
  have hm : 1 ≤ (dateOf year day).month := by simp only [dateOf]; split_ifs <;> omega
  have hm' : (dateOf year day).month ≤ 12 := by simp only [dateOf]; split_ifs <;> omega
  have hd : 1 ≤ (dateOf year day).day := by simp only [dateOf]; omega
  refine ⟨hm, hm', hd, ?_⟩
  rw [Date.dayOfYear] at hdayOfYear
  -- February is the last month from March, and the only one whose length the year decides
  by_cases htwo : (dateOf year day).month = 2
  · have hnextYear : (dateOf year day).year = year + 1 := by
      rw [Date.marchYear, if_pos (by omega)] at hyear
      omega
    have hfeb : (dateOf year day).fromMarch = 11 := by rw [Date.fromMarch, htwo]; rfl
    have hleap' := isLeap_iff (year + 1)
    rw [hfeb, monthStart] at hdayOfYear
    rw [htwo, daysInMonth_two, hnextYear]
    split_ifs with hl
    · omega
    · rw [hleap'] at hl
      omega
  · have hdays := daysInMonth_eq hm hm' htwo (dateOf year day).year
    rw [← Date.fromMarch] at hdays
    rw [hmonth] at hdays hdayOfYear
    omega

theorem exists_ofDays_eq (n : Int) : ∃ era year day, IsDayOfYear year day ∧
    n = era * 146097 + (yearStart year + day) - 719468 := by
  obtain ⟨year, day, h, hn⟩ := exists_isDayOfYear (Int.emod_nonneg (n + 719468) (by decide))
    (Int.emod_lt_of_pos (n + 719468) (by decide : (0 : Int) < 146097))
  exact ⟨(n + 719468) / 146097, year, day, h, by omega⟩

/-- **The date of a day is one of the calendar.** -/
theorem ofDays_isReal (n : Int) : (Date.ofDays n).IsReal := by
  obtain ⟨era, year, day, h, rfl⟩ := exists_ofDays_eq n
  rw [ofDays_eq h]
  have hyear : (year + era * 400) % 400 = year := by have := h.year_nonneg; have := h.year_lt; omega
  exact dateOf_isReal (hyear.symm ▸ h)

/-- **The day of the date of a day is that day.** -/
theorem toDays_ofDays (n : Int) : (Date.ofDays n).toDays = n := by
  obtain ⟨era, year, day, h, rfl⟩ := exists_ofDays_eq n
  have hera : (year + era * 400) / 400 = era := by have := h.year_nonneg; have := h.year_lt; omega
  rw [ofDays_eq h, Date.toDays_eq, marchYear_dateOf h.day_nonneg h.day_lt, dayOfYear_dateOf h.day_nonneg h.day_lt, hera,
    Int.add_sub_cancel]

/-! ## The order of dates -/

/-- The days before a year that begins in March. -/
def daysBefore (year : Int) : Int := 365 * year + year / 4 - year / 100 + year / 400

theorem Date.toDays_eq_daysBefore (d : Date) : d.toDays = daysBefore d.marchYear + d.dayOfYear - 719468 := by
  rw [toDays_eq, daysBefore, yearStart]
  omega

theorem daysBefore_mono : Monotone daysBefore := monotone_int_of_le_succ fun year => by
  unfold daysBefore
  omega

theorem Date.IsReal.lt_daysBefore {d : Date} (h : d.IsReal) :
    daysBefore d.marchYear + d.dayOfYear < daysBefore (d.marchYear + 1) := by
  obtain ⟨-, -, -, hlt, hleap⟩ := h.isDayOfYear
  unfold daysBefore
  omega

/-- **Later dates are later days.** -/
theorem toDays_lt_toDays {d d' : Date} (h : d.IsReal) (h' : d'.IsReal)
    (hlt : d.year < d'.year ∨ (d.year = d'.year ∧ (d.month < d'.month ∨ (d.month = d'.month ∧ d.day < d'.day)))) :
    d.toDays < d'.toDays := by
  rw [Date.toDays_eq_daysBefore, Date.toDays_eq_daysBefore]
  have hstart' : monthStart d'.fromMarch ≤ d'.dayOfYear := by have := h'.day_pos; rw [Date.dayOfYear]; omega
  have hnonneg' : 0 ≤ d'.dayOfYear := by simp only [Date.fromMarch, monthStart] at hstart'; omega
  rcases lt_or_ge d.marchYear d'.marchYear with hyear | hyear
  · have hmono := daysBefore_mono (show d.marchYear + 1 ≤ d'.marchYear by omega)
    have hbefore := h.lt_daysBefore
    omega
  · -- in one year from March the months tell, and in one month the days
    have hm := And.intro h.month_pos h.month_le
    have hm' := And.intro h'.month_pos h'.month_le
    have hsame : d.marchYear = d'.marchYear := by simp only [Date.marchYear] at hyear ⊢; split_ifs at hyear ⊢ <;> omega
    rw [hsame]
    have hmonths : d.fromMarch < d'.fromMarch ∨ (d.fromMarch = d'.fromMarch ∧ d.day < d'.day) := by
      simp only [Date.marchYear] at hsame
      simp only [Date.fromMarch]
      split_ifs at hsame <;> omega
    rcases hmonths with hmonth | ⟨hmonth, hday⟩
    · have hnext := h.dayOfYear_lt
      have hmono : monthStart (d.fromMarch + 1) ≤ monthStart d'.fromMarch := by unfold monthStart; omega
      omega
    · rw [Date.dayOfYear, Date.dayOfYear, hmonth]
      omega

end CodeReview.Calendar
