import CodeReview.Calendar.Iso
import CodeReview.Number.Read
import CodeReview.Value.Basic
import CodeReview.Value.Yaml.Fault
/-!
# Dates in YAML

A scalar is a date if it has the form of one: year, month and day, alone or with a time of day behind them and
perhaps an offset from UTC. Alone, month and day have two digits each where nothing else tells that a date is
meant. A scalar of that form whose parts are not those of a date stands for nothing.
-/
namespace CodeReview.Value.Yaml

open Calendar (Date Moment)

/-! ## The form -/

/-- The parts of a date and time as they are written; the offset is in minutes. -/
structure Stamp where
  /-- Whether month and day have two digits each, or a time of day follows. -/
  isFull : Bool
  year : Nat
  month : Nat
  day : Nat
  /-- Hour, minute, second and microsecond. -/
  time : Option (Nat × Nat × Nat × Nat) := none
  offset : Option Int := none
  deriving DecidableEq, Repr

namespace Stamp

/-- A run of digits at the head, of a length within bounds, and what follows it. -/
def digits (least most : Nat) (cs : List Char) : Option (List Char × List Char) :=
  let ds := cs.takeWhile Char.isDigit
  if least ≤ ds.length && ds.length ≤ most then some (ds, cs.drop ds.length) else none

def number (ds : List Char) : Nat := (Number.readNat 10 ds).getD 0

def behind (c : Char) : List Char → Option (List Char)
  | a :: cs => if a == c then some cs else none
  | [] => none

/-- Reads an offset from UTC to the end; nothing is no offset. -/
def readOffset (cs : List Char) : Option (Option Int) :=
  match cs.dropWhile fun c => c == ' ' || c == '\t' with
  | [] => if cs.isEmpty then some none else none
  | ['Z'] => some (some 0)
  | sign :: rest =>
    if sign != '+' && sign != '-' then none
    else do
      let (hours, rest) ← digits 1 2 rest
      let (minutes, rest) ← if rest.isEmpty then some ([], []) else (behind ':' rest).bind (digits 2 2)
      if !rest.isEmpty then none
      let total : Int := number hours * 60 + number minutes
      return some (if sign == '-' then -total else total)

/-- The microseconds of the digits of a fraction, of which six count. -/
def micros (ds : List Char) : Nat :=
  let six := ds.take 6
  number (six ++ List.replicate (6 - six.length) '0')

def readTime (s : Stamp) (cs : List Char) : Option Stamp := do
  let (hour, rest) ← digits 1 2 cs
  let (minute, rest) ← (behind ':' rest).bind (digits 2 2)
  let (second, rest) ← (behind ':' rest).bind (digits 2 2)
  let (fraction, rest) := match rest with
    | '.' :: rest => (rest.takeWhile Char.isDigit, rest.dropWhile Char.isDigit)
    | rest => ([], rest)
  let offset ← readOffset rest
  return { s with time := some (number hour, number minute, number second, micros fraction), offset }

def read (cs : List Char) : Option Stamp := do
  let (year, rest) ← digits 4 4 cs
  let (month, rest) ← (behind '-' rest).bind (digits 1 2)
  let (day, rest) ← (behind '-' rest).bind (digits 1 2)
  let isFull := !rest.isEmpty || (month.length == 2 && day.length == 2)
  let s : Stamp := { isFull, year := number year, month := number month, day := number day }
  match rest with
  | [] => some s
  | c :: more =>
    if c == 'T' || c == 't' then s.readTime more
    else if c == ' ' || c == '\t' then s.readTime (more.dropWhile fun a => a == ' ' || a == '\t')
    else none

/-! ## The date -/

def badDate (s : Stamp) : Option DatePart :=
  if s.year == 0 then some (.year s.year)
  else if s.month == 0 || 12 < s.month then some .month
  else if s.day == 0 || Calendar.daysInMonth s.year s.month < s.day then some .day
  else none

def badTime : Option (Nat × Nat × Nat × Nat) → Option DatePart
  | some (hour, minute, second, _) =>
    if 24 ≤ hour then some .hour
    else if 60 ≤ minute then some .minute
    else if 60 ≤ second then some .second
    else none
  | none => none

def dayMinutes : Nat := 1440

/-- What is wrong with the parts of a date, if anything; the offset is looked at first. -/
def fault? (s : Stamp) : Option NoValue :=
  let minutes := s.offset.getD 0
  if dayMinutes ≤ minutes.natAbs then some (.offset minutes)
  else ((s.badDate).or (badTime s.time)).map .date

def date (s : Stamp) : Date := ⟨s.year, s.month, s.day⟩

def moment (s : Stamp) : Moment :=
  let (hour, minute, second, micros) := s.time.getD (0, 0, 0, 0)
  ⟨s.date, hour * 3600 + minute * 60 + second, micros, s.offset.map (· * 60000000)⟩

end Stamp

/-! ## How it is shown -/

def dateParts (d : Date) : List String := [toString d.year, toString d.month, toString d.day]

def ofDate (d : Date) : Special :=
  { shown := d.iso, exact := "datetime.date(" ++ ", ".intercalate (dateParts d) ++ ")" }

/-- The seconds and microseconds of a call, which are left out from the end where they are zero. -/
def fineParts (second micros : Nat) : List String :=
  if micros != 0 then [toString second, toString micros]
  else if second != 0 then [toString second]
  else []

def zoneText (minutes : Int) : String :=
  if minutes == 0 then "datetime.timezone.utc" else "datetime.timezone(" ++ spanText minutes ++ ")"

def offsetText (minutes : Int) : String :=
  (if minutes < 0 then "-" else "+") ++ Calendar.zeros 2 (minutes.natAbs / 60) ++ ":" ++
    Calendar.zeros 2 (minutes.natAbs % 60)

def ofMoment (m : Moment) : Special :=
  let minutes := m.offset.map (·.fdiv 60000000)
  let parts := dateParts m.date ++ [toString (m.seconds / 3600), toString (m.seconds / 60 % 60)] ++
    fineParts (m.seconds % 60) m.micros ++ (minutes.map fun n => "tzinfo=" ++ zoneText n).toList
  { shown := m.date.iso ++ " " ++ Calendar.clockText m.seconds ++
      (if m.micros == 0 then "" else "." ++ Calendar.zeros 6 m.micros) ++ (minutes.map offsetText).getD ""
    exact := "datetime.datetime(" ++ ", ".intercalate parts ++ ")" }

def Stamp.value (s : Stamp) : Except NoValue Value :=
  match s.fault? with
  | some why => .error why
  | none => .ok (.special (if s.time.isSome then ofMoment s.moment else ofDate s.date))

end CodeReview.Value.Yaml
