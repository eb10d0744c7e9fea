import CodeReview.Proofs.Calendar.Label
import CodeReview.Report.Digest
/-!
# Times in reports

A report shows the date and the time of day of a moment as they are written, behind which it says UTC.  That is the instant in
UTC just if the offset moves it by no second (`shows_instant_iff`), so always where the moment is in UTC or has no offset.
-/
namespace CodeReview.Calendar

/-! ## Moments that are read -/

theorem readDigits_lt : ∀ {count acc n : Nat} {bs rest : Text.Bytes}, readDigits count acc bs = some (n, rest) →
    n < (acc + 1) * 10 ^ count
  | 0, acc, n, bs, rest, h => by
    cases h
    omega
  | count + 1, acc, n, [], rest, h => by cases h
  | count + 1, acc, n, b :: bs, rest, h => by
    rw [readDigits] at h
    split at h
    · rename_i hb
      have ih := readDigits_lt h
      rw [isDigitByte, Bool.and_eq_true, decide_eq_true_eq, decide_eq_true_eq] at hb
      have hdigit : b.toNat - 48 + 1 ≤ 10 := by have := UInt8.le_iff_toNat_le.1 hb.2; simp at this; omega
      calc n < (acc * 10 + (b.toNat - 48) + 1) * 10 ^ count := ih
        _ ≤ ((acc + 1) * 10) * 10 ^ count := Nat.mul_le_mul_right _ (by omega)
        _ = (acc + 1) * 10 ^ (count + 1) := by rw [Nat.pow_succ, Nat.mul_assoc, Nat.mul_comm 10]
    · cases h

theorem readFraction_lt {size : Nat} {bs : Text.Bytes} {micros : Nat} {more : Bool}
    (h : readFraction size bs = some (micros, more)) : micros < 1000000 := by
  simp only [readFraction, Option.bind_eq_bind, Option.bind_eq_some_iff, Option.pure_def, Option.some.injEq,
    Prod.exists, Prod.mk.injEq] at h
  obtain ⟨n, rest, hdigits, hmicros, -⟩ := h
  have hn := readDigits_lt hdigits
  rw [Nat.zero_add, Nat.one_mul] at hn
  have hcount : min size 6 ≤ 6 := Nat.min_le_right _ _
  generalize min size 6 = count at hn hcount hmicros
  rw [← hmicros]
  split
  · rename_i hzero
    rw [beq_iff_eq.1 hzero] at hn
    omega
  · calc n * 10 ^ (6 - count) < 10 ^ count * 10 ^ (6 - count) := Nat.mul_lt_mul_of_pos_right hn (Nat.pow_pos (by decide))
      _ = 1000000 := by rw [← Nat.pow_add, Nat.add_sub_cancel' hcount]

theorem readClockFrom_micros : ∀ {pairs size : Nat} {colons : Bool} {parts : List Nat} {bs : Text.Bytes} {p : ClockParts},
    readClockFrom colons parts pairs size bs = some p → p.micros < 1000000
  | 0, size, colons, parts, bs, p, h => by
    simp only [readClockFrom, Option.bind_eq_bind, Option.bind_eq_some_iff, Option.pure_def, Option.some.injEq,
      Prod.exists] at h
    obtain ⟨micros, more, hfraction, rfl⟩ := h
    exact readFraction_lt hfraction
  | pairs + 1, size, colons, parts, bs, p, h => by
    simp only [readClockFrom, Option.bind_eq_bind, Option.bind_eq_some_iff, Option.pure_def, Prod.exists] at h
    obtain ⟨n, rest, -, h⟩ := h
    generalize (if ((parts ++ [n]).length == 1) = true then peek rest == 0x3A else colons) = colons' at h
    split at h
    · rw [← Option.some.inj h]
      show 0 < 1000000
      decide
    · split at h
      · exact readClockFrom_micros h
      · split at h
        · simp only [Option.bind_eq_some_iff, Option.some.injEq, Prod.exists] at h
          obtain ⟨micros, more, hfraction, rfl⟩ := h
          exact readFraction_lt hfraction
        · split at h
          · exact readClockFrom_micros h
          · cases h

namespace Moment

/-- That a date, a time of day and an offset can be those of a written moment. -/
structure IsValid (m : Moment) : Prop where
  date : m.date.isValid = true
  seconds : m.seconds < 86400
  micros : m.micros < 1000000

theorem IsValid.isReal {m : Moment} (h : m.IsValid) : m.IsReal := ⟨(Date.isValid_iff.1 h.date).2, h.seconds⟩

theorem IsValid.year_nonneg {m : Moment} (h : m.IsValid) : 0 ≤ m.date.year :=
  Int.le_trans (by decide) (Date.isValid_iff.1 h.date).1.1

theorem isValid_of_parts {date : Date} {p : ClockParts} {offset : Option Int} {m : Moment} (hp : p.micros < 1000000)
    (h : moment? date p offset = some m) : m.IsValid := by
  unfold moment? at h
  split at h
  · rename_i hrange
    simp only [Bool.and_eq_true, decide_eq_true_eq] at hrange
    cases h
    exact ⟨hrange.1.1.1, by dsimp only; omega, hp⟩
  · cases h

/-- **A moment that is read is valid.** -/
theorem isValid_of_read {s : String} {m : Moment} (h : readMoment s = some m) : m.IsValid := by
  unfold readMoment at h
  dsimp only at h
  split at h
  · cases h
  · simp only [Option.bind_eq_bind, Option.bind_eq_some_iff] at h
    obtain ⟨len, -, date, -, h⟩ := h
    split at h
    · exact isValid_of_parts (by decide) h
    · simp only [Option.bind_eq_some_iff] at h
      obtain ⟨p, hp, h⟩ := h
      have hmicros := readClockFrom_micros hp
      split at h
      · split at h
        · cases h
        · exact isValid_of_parts hmicros h
      · simp only [Option.bind_eq_some_iff] at h
        obtain ⟨offset, -, h⟩ := h
        exact isValid_of_parts hmicros h

/-! ## Moments in UTC -/

theorem ofInstant_isReal (t : Instant) : (ofInstant t).IsReal := by
  refine ⟨ofDays_isReal _, ?_⟩
  have hday := Int.fmod_lt_of_pos t.micros (by decide : (0 : Int) < microsPerDay)
  rw [microsPerDay] at hday
  simp only [ofInstant, Instant.ofDay, microsPerDay]
  omega

theorem micros_instant (m : Moment) :
    m.instant.micros = m.secondShown * 1000000 + ((m.micros : Int) - m.offset.getD 0) := by
  simp only [instant, secondShown, microsPerDay]
  omega

/-- **The moment of an instant is at that instant.** -/
theorem ofInstant_instant (t : Instant) : (ofInstant t).instant = t := by
  have hday := Int.fmod_nonneg_of_pos t.micros (by decide : (0 : Int) < microsPerDay)
  have hsplit := Int.mul_fdiv_add_fmod t.micros microsPerDay
  have hmicros : (ofInstant t).instant.micros = t.micros := by
    simp only [instant, ofInstant, Instant.date, toDays_ofDays, Instant.ofDay, Option.getD_some]
    rw [microsPerDay] at hday hsplit ⊢
    omega
  cases t
  exact congrArg Instant.mk hmicros

theorem secondShown_ofInstant (t : Instant) : (ofInstant t).secondShown = t.micros / 1000000 := by
  have hmicros := micros_instant (ofInstant t)
  rw [ofInstant_instant] at hmicros
  have hless : (ofInstant t).micros < 1000000 := Nat.mod_lt _ (by decide)
  have hoffset : (ofInstant t).offset.getD 0 = 0 := rfl
  omega

/-- That the offset of a moment does not move it into another second. -/
def KeepsSecond (m : Moment) : Prop := 0 ≤ (m.micros : Int) - m.offset.getD 0 ∧ (m.micros : Int) - m.offset.getD 0 < 1000000

theorem keepsSecond_iff (m : Moment) : m.KeepsSecond ↔ m.secondShown = m.instant.micros / 1000000 := by
  rw [KeepsSecond, micros_instant]
  omega

theorem IsValid.keepsSecond {m : Moment} (h : m.IsValid) (hoffset : m.offset.getD 0 = 0) : m.KeepsSecond := by
  have hmicros := h.micros
  rw [KeepsSecond, hoffset]
  omega

theorem KeepsSecond.date_eq {m : Moment} (h : m.IsReal) (hkeeps : m.KeepsSecond) : m.date = m.instant.date := by
  rw [h.date_eq, (keepsSecond_iff m).1 hkeeps, ← secondShown_ofInstant, ← (ofInstant_isReal m.instant).date_eq]
  rfl

/-- **A label shows the instant in UTC just if the offset does not move it into another second.** -/
theorem shows_instant_iff {m : Moment} (h : m.IsValid) (hyear : 0 ≤ m.instant.date.year) :
    m.label = (ofInstant m.instant).label ↔ m.KeepsSecond := by
  rw [label_eq_iff h.isReal (ofInstant_isReal _) h.year_nonneg hyear, secondShown_ofInstant, keepsSecond_iff]

end Moment
end CodeReview.Calendar

namespace CodeReview.Report

open Calendar

/-- **What is shown of a time** is its date and its time of day as they are written, and a text that is none is shown as it is.
So the instant is shown in UTC just if the offset moves it by no second, times are shown alike just if they are written with
the same second, and times whose offsets move no second are shown in the order of their instants. -/
theorem times_shown_as_written {m : Moment} (h : m.IsValid) (hyear : 1000 ≤ m.instant.date.year)
    (hyear' : m.instant.date.year ≤ 9999) :
    (m.label = (Moment.ofInstant m.instant).label ↔ m.KeepsSecond) ∧
    (m.offset.getD 0 = 0 → m.KeepsSecond) ∧
    (∀ m' : Moment, m'.IsValid → 1000 ≤ m'.instant.date.year → m'.instant.date.year ≤ 9999 →
      (m.label = m'.label ↔ m.secondShown = m'.secondShown) ∧
      (m.KeepsSecond → m'.KeepsSecond →
        (m.label ≤ m'.label ↔ m.instant.micros / 1000000 ≤ m'.instant.micros / 1000000))) ∧
    (∀ s m', readMoment s = some m' → m'.IsValid ∧ writtenTimeText s = m'.label) ∧
    (∀ s, readMoment s = none → writtenTimeText s = s) ∧
    ∀ t, timeText (some t) = (Moment.ofInstant t).label ∧ (Moment.ofInstant t).instant = t ∧ (Moment.ofInstant t).IsReal := by
  refine ⟨Moment.shows_instant_iff h (by omega), h.keepsSecond, fun m' h' hyears hyears' => ⟨?_, fun hkeeps hkeeps' => ?_⟩,
    fun s m' hread => ⟨Moment.isValid_of_read hread, by rw [writtenTimeText, hread]⟩,
    fun s hnone => by rw [writtenTimeText, hnone],
    fun t => ⟨rfl, Moment.ofInstant_instant t, Moment.ofInstant_isReal t⟩⟩
  · exact Moment.label_eq_iff h.isReal h'.isReal h.year_nonneg h'.year_nonneg
  · rw [← hkeeps.date_eq h.isReal] at hyear hyear'
    rw [← hkeeps'.date_eq h'.isReal] at hyears hyears'
    rw [Moment.label_le_iff h.isReal h'.isReal ⟨hyear, hyear'⟩ ⟨hyears, hyears'⟩, (Moment.keepsSecond_iff m).1 hkeeps,
      (Moment.keepsSecond_iff m').1 hkeeps']

/-- A time without an offset is shown as the instant in UTC. -/
theorem time_without_offset :
    readMoment "2024-01-02T03:04:05" = some ⟨⟨2024, 1, 2⟩, 11045, 0, none⟩ ∧
    (⟨⟨2024, 1, 2⟩, 11045, 0, none⟩ : Moment).IsValid ∧
    writtenTimeText "2024-01-02T03:04:05" =
      (Moment.ofInstant (⟨⟨2024, 1, 2⟩, 11045, 0, none⟩ : Moment).instant).label := by
  have hread : readMoment "2024-01-02T03:04:05" = some ⟨⟨2024, 1, 2⟩, 11045, 0, none⟩ := by decide +kernel
  have hvalid : (⟨⟨2024, 1, 2⟩, 11045, 0, none⟩ : Moment).IsValid := ⟨by decide, by decide, by decide⟩
  obtain ⟨hinstant, hkeeps, -, hshown, -, -⟩ := times_shown_as_written hvalid (by decide) (by decide)
  exact ⟨hread, hvalid, (hshown _ _ hread).2.trans (hinstant.2 (hkeeps rfl))⟩

/-- A time two hours ahead of UTC is shown two hours late, and otherwise than the same instant in UTC. -/
theorem offset_not_converted :
    ∃ m, readMoment "2024-01-02T03:04:05+02:00" = some m ∧ m.instant.date.year = 2024 ∧
      (Moment.ofInstant m.instant).label = "2024-01-02 01:04:05 UTC" ∧
      writtenTimeText "2024-01-02T03:04:05+02:00" = "2024-01-02 03:04:05 UTC" ∧
      (readMoment "2024-01-02T01:04:05+00:00").map Moment.instant = some m.instant ∧
      writtenTimeText "2024-01-02T01:04:05+00:00" = "2024-01-02 01:04:05 UTC" :=
  ⟨⟨⟨2024, 1, 2⟩, 11045, 0, some 7200000000⟩, by decide +kernel, by decide +kernel, by decide +kernel, by decide +kernel,
    by decide +kernel, by decide +kernel⟩

end CodeReview.Report
