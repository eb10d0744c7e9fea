import CodeReview.Calendar.Date
import CodeReview.Number.Quantity
import CodeReview.Number.Rounding
/-!
# Clocks

A number of seconds since the start of 1970 is an instant of any size (`Instant.ofSeconds`), and a time of the
calendar only while its year is one of the years 1 to 9999 (`Instant.dated`).

A clock is a sequence of instants of which some have been read. Whoever reads a clock gives it back as it
was left, so that all readings of a run are in one order.
-/
namespace CodeReview.Calendar

/-- The nearest integer of a double that is not negative, a half going to the even neighbour. -/
def nearestNat (x : Float) : Nat :=
  match Number.Binary.ofFloat x with
  | some b => Number.roundDiv b.fraction.1 b.fraction.2
  | none => 0

inductive TimeError where
  | undefined
  /-- The seconds are no integer of 64 bits. -/
  | beyondSeconds
  /-- The year, counted from 1900, is no integer of 32 bits. -/
  | beyondYears
  /-- The year is not one of the years 1 to 9999. -/
  | year (y : Int)
  deriving DecidableEq, Repr

def TimeError.message : TimeError → String
  | undefined => "Invalid value NaN (not a number)"
  | beyondSeconds => "timestamp out of range for platform time_t"
  | beyondYears => "[Errno 75] Value too large for defined data type"
  | year y => "year " ++ toString y ++ " is out of range"

/-- The instant of a double of seconds since the start of 1970. The whole seconds are split off before the
rest is rounded to microseconds. -/
def Instant.ofFloat (x : Float) : Instant :=
  let whole := x.abs.floor
  let micros : Nat := nearestNat whole * 1000000 + nearestNat ((x.abs - whole) * 1000000.0)
  ⟨if x < 0.0 then -(micros : Int) else micros⟩

/-- The instant of a number of seconds since the start of 1970, if these fit into 64 bits. -/
def Instant.ofSeconds (q : Number.Quantity) : Except TimeError Instant :=
  let limit : Int := Number.twoTo 63
  let inRange (t : Instant) : Except TimeError Instant :=
    let seconds := t.micros.fdiv 1000000
    if -limit ≤ seconds && seconds < limit then .ok t else .error .beyondSeconds
  match q with
  | .whole n => inRange ⟨n * 1000000⟩
  | .decimal x =>
    if x.isNaN then .error .undefined
    else if (Number.Binary.ofFloat x).isNone then .error .beyondSeconds
    else inRange (.ofFloat x)

/-- An instant whose year is one of the years 1 to 9999. A year is reported as an integer of 32 bits. -/
def Instant.dated (t : Instant) : Except TimeError Instant :=
  let limit : Int := Number.twoTo 31
  let y := t.date.year
  if y - 1900 < -limit || limit ≤ y - 1900 then .error .beyondYears
  else if 1 ≤ y && y ≤ 9999 then .ok t
  else .error (.year (y.bmod (Number.twoTo 32)))

/-- The readings of a clock and how many of them have been taken. -/
structure Clock where
  readings : Nat → Instant
  taken : Nat := 0

namespace Clock

def read (c : Clock) : Instant × Clock := (c.readings c.taken, { c with taken := c.taken + 1 })

/-- A clock that starts at an instant and moves on by the same number of microseconds each time. -/
def ticking (start : Instant) (step : Int) : Clock := ⟨fun n => start.later (n * step), 0⟩

end Clock
end CodeReview.Calendar
