import CodeReview.Text.Blank
/-!
# Dates and instants

Days of the proleptic Gregorian calendar, counted from 1 January 1970, and instants, counted in
microseconds from the start of that day in UTC. A calendar year is taken to begin in March, so that the
leap day is its last day and a month's first day has a closed form.
-/
namespace CodeReview.Calendar

structure Date where
  year : Int
  month : Nat
  day : Nat
  deriving DecidableEq, Repr

def isLeap (year : Int) : Bool := year % 4 == 0 && (year % 100 != 0 || year % 400 == 0)

def daysInMonth (year : Int) (month : Nat) : Nat :=
  if month == 2 then (if isLeap year then 29 else 28)
  else if month == 4 || month == 6 || month == 9 || month == 11 then 30
  else 31

/-- Whether a date exists, in the years 1 to 9999. -/
def Date.isValid (d : Date) : Bool :=
  1 ≤ d.year && d.year ≤ 9999 && 1 ≤ d.month && d.month ≤ 12 && 1 ≤ d.day &&
    d.day ≤ daysInMonth d.year d.month

/-- The day's number, counted from 1 January 1970. -/
def Date.toDays (d : Date) : Int :=
  let year := if d.month ≤ 2 then d.year - 1 else d.year
  let era := year.fdiv 400
  let yearOfEra := year - era * 400
  let month : Int := (d.month + 9) % 12
  let dayOfYear := (153 * month + 2).fdiv 5 + d.day - 1
  let dayOfEra := yearOfEra * 365 + yearOfEra.fdiv 4 - yearOfEra.fdiv 100 + dayOfYear
  era * 146097 + dayOfEra - 719468

def Date.ofDays (days : Int) : Date :=
  let z := days + 719468
  let era := z.fdiv 146097
  let dayOfEra := z - era * 146097
  let yearOfEra :=
    (dayOfEra - dayOfEra.fdiv 1460 + dayOfEra.fdiv 36524 - dayOfEra.fdiv 146096).fdiv 365
  let dayOfYear := dayOfEra - (365 * yearOfEra + yearOfEra.fdiv 4 - yearOfEra.fdiv 100)
  let month := (5 * dayOfYear + 2).fdiv 153
  let day := dayOfYear - (153 * month + 2).fdiv 5 + 1
  let calendarMonth := if month < 10 then month + 3 else month - 9
  let year := yearOfEra + era * 400
  ⟨if calendarMonth ≤ 2 then year + 1 else year, calendarMonth.toNat, day.toNat⟩

/-- The weekday of a day's number, Monday being 1 and Sunday 7. -/
def weekday (days : Int) : Nat := ((days + 3).fmod 7).toNat + 1

/-- The day's number of the Monday of week 1: the week that holds 4 January. -/
def weekOne (year : Int) : Int :=
  let fourth := Date.toDays ⟨year, 1, 4⟩
  fourth - (weekday fourth - 1 : Nat)

/-- How many numbered weeks a year has: 53 when it begins on a Thursday, or on a Wednesday and is a
leap year. -/
def weeksIn (year : Int) : Nat :=
  let first := weekday (Date.toDays ⟨year, 1, 1⟩)
  if first == 4 || (first == 3 && isLeap year) then 53 else 52

def ofWeek (year : Int) (week day : Nat) : Option Date :=
  if 1 ≤ year && year ≤ 9999 && 1 ≤ week && week ≤ weeksIn year && 1 ≤ day && day ≤ 7 then
    some (Date.ofDays (weekOne year + ((week - 1) * 7 + (day - 1) : Nat)))
  else none

/-- A point in time, in microseconds from the start of 1970 in UTC. -/
structure Instant where
  micros : Int
  deriving DecidableEq, Repr, Inhabited

def microsPerDay : Int := 86400000000

def Instant.later (t : Instant) (micros : Int) : Instant := ⟨t.micros + micros⟩

def Instant.date (t : Instant) : Date := Date.ofDays (t.micros.fdiv microsPerDay)

/-- The microseconds since the start of the instant's UTC day. -/
def Instant.ofDay (t : Instant) : Nat := (t.micros.fmod microsPerDay).toNat

def zeros (width n : Nat) : String := Text.padLeft width '0' (toString n)

def clockText (seconds : Nat) : String :=
  zeros 2 (seconds / 3600) ++ ":" ++ zeros 2 (seconds / 60 % 60) ++ ":" ++ zeros 2 (seconds % 60)

def Instant.clock (t : Instant) : String := clockText (t.ofDay / 1000000)

def Date.iso (d : Date) : String :=
  zeros 4 d.year.toNat ++ "-" ++ zeros 2 d.month ++ "-" ++ zeros 2 d.day

/-- An instant in UTC; microseconds are written only when there are some. -/
def Instant.iso (t : Instant) : String :=
  let micros := t.ofDay % 1000000
  t.date.iso ++ "T" ++ t.clock ++ (if micros == 0 then "" else "." ++ zeros 6 micros) ++ "+00:00"

end CodeReview.Calendar
