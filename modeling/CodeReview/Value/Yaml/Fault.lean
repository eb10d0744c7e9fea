import CodeReview.Value.Yaml.FormError
/-!
# What is wrong with a YAML document

A document may not be YAML at all (`FormError`), or may hold a scalar that stands for no value: a character
code, a numeral or a date that does not exist. It may also be a table that is inside itself.
-/
namespace CodeReview.Value.Yaml

inductive DatePart where
  | year (given : Nat)
  | month
  | day
  | hour
  | minute
  | second
  deriving DecidableEq, Repr

inductive NoValue where
  /-- A code above those of all characters. -/
  | noCharacter
  /-- A code that is no integer of 32 bits with a sign. -/
  | hugeCode
  /-- A text that is no numeral of a base. -/
  | noInteger (base : Nat) (given : String)
  /-- A text that is no double. -/
  | noDouble (given : String)
  /-- A text that is no truth value. -/
  | noTruth (given : String)
  /-- A numeral of no characters. -/
  | noFirst
  /-- A text that has not the form of a date. -/
  | noDate
  /-- A decimal numeral with too many digits. -/
  | tooManyDigits (count : Nat)
  /-- A part of a date that is out of range. -/
  | date (part : DatePart)
  /-- An offset from UTC, in minutes, of a day or more. -/
  | offset (minutes : Int)
  /-- A table that is inside itself. -/
  | endless
  deriving DecidableEq, Repr

inductive Fault where
  | form (why : FormError)
  | value (why : NoValue)
  deriving DecidableEq, Repr

def Fault.at (place : Mark) (wrong : Wrong) : Fault := .form (.trouble { wrong, place })

/-- Something met at a place by a reader that began at a mark. -/
def Fault.during (work : Work) (since : Mark) (place : Mark) (wrong : Wrong) : Fault :=
  .form (.trouble { work := some work, since := some since, wrong, place })

/-- Stands for what is wrong where a reader has run out of fuel, which none does. -/
def Fault.outOfFuel : Fault := .value .endless

/-- The most digits of a decimal numeral. -/
def digitLimit : Nat := 4300

def DatePart.message : DatePart → String
  | year given => "year " ++ toString given ++ " is out of range"
  | month => "month must be in 1..12"
  | day => "day is out of range for month"
  | hour => "hour must be in 0..23"
  | minute => "minute must be in 0..59"
  | second => "second must be in 0..59"

/-- A span of minutes as days and seconds, of which those that are zero are left out; the days may be
negative. -/
def spanText (minutes : Int) : String :=
  let days := minutes.fdiv 1440
  let seconds := minutes.fmod 1440 * 60
  let parts := (if days == 0 then [] else ["days=" ++ toString days]) ++
    (if seconds == 0 then [] else ["seconds=" ++ toString seconds])
  "datetime.timedelta(" ++ ", ".intercalate parts ++ ")"

def NoValue.message : NoValue → String
  | noCharacter => "chr() arg not in range(0x110000)"
  | hugeCode => "Python int too large to convert to C int"
  | noInteger base given =>
    "invalid literal for int() with base " ++ toString base ++ ": " ++
      String.ofList ((Text.quoted given).toList.take 200)
  | noDouble given => "could not convert string to float: " ++ Text.quoted given
  | noTruth given => Text.quoted given
  | noFirst => "string index out of range"
  | noDate => "'NoneType' object has no attribute 'groupdict'"
  | tooManyDigits count =>
    "Exceeds the limit (" ++ toString digitLimit ++ " digits) for integer string conversion: value has " ++
      toString count ++ " digits; use sys.set_int_max_str_digits() to increase the limit"
  | date part => part.message
  | offset minutes =>
    "offset must be a timedelta strictly between -timedelta(hours=24) and timedelta(hours=24), not " ++
      spanText minutes ++ "."
  | endless => "maximum recursion depth exceeded"

end CodeReview.Value.Yaml
