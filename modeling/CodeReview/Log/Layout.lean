import CodeReview.Calendar.Clock
import CodeReview.Log.Record
import CodeReview.Severity
import CodeReview.Text.Lines
import CodeReview.Value.Json
/-!
# Log lines

Three layouts of a record. The plain one has a tag for the level and the message; the verbose one adds the
time of day, the speaker and the failure; the machine one is a JSON table, in which structured fields
stand beside the record's own and replace what they share a name with. The first two may be colored.
-/
namespace CodeReview.Log

open Calendar (Instant TimeError)

inductive Mode where
  | human
  | verbose
  | json
  deriving DecidableEq, Repr, Inhabited

namespace Mode

def all : List Mode := [.human, .verbose, .json]

def name : Mode → String
  | .human => "human"
  | .verbose => "verbose"
  | .json => "json"

def ofName? (s : String) : Except UnknownName Mode :=
  match all.find? (·.name == s) with
  | some v => .ok v
  | none => .error ⟨"LogMode", s⟩

/-- The instant a layout shows for a number of seconds since the start of 1970. The plain layout shows none, so
any number will do; the verbose one also looks a day back, where the calendar has to have a date too. -/
def time (mode : Mode) (seconds : Number.Quantity) : Except TimeError Instant :=
  match mode with
  | .human => .ok default
  | .verbose => do
    let t ← (← Instant.ofSeconds seconds).dated
    let _ ← (t.later (-Calendar.microsPerDay)).dated
    return t
  | .json => do (← Instant.ofSeconds seconds).dated

end Mode

def colorCode (code : String) : String := "\x1b[" ++ code ++ "m"

def color (level : Int) : String :=
  if level == debugLevel then colorCode "90"
  else if level == infoLevel then colorCode "32"
  else if level == warningLevel then colorCode "33"
  else if level == errorLevel || level == criticalLevel then colorCode "31"
  else colorCode "0"

def tag (colored : Bool) (level : Int) : String :=
  let text := "[" ++ levelName level ++ "]"
  if colored then color level ++ text ++ colorCode "0" else text

def humanLine (colored : Bool) (r : Record) : String := tag colored r.level ++ " " ++ r.message

def verboseLine (colored : Bool) (at_ : Instant) (r : Record) : String :=
  tag colored r.level ++ "[" ++ at_.clock ++ "] " ++ r.logger ++ ": " ++ r.message ++
    (match r.failure with
      | none => ""
      | some text => "\n" ++ text)

def machineEntries (at_ : Instant) (r : Record) : Entries Value :=
  let own : Entries Value := [
    ("level", .text (levelName r.level)),
    ("ts", .text at_.iso),
    ("logger", .text r.logger),
    ("msg", .text r.message)]
  let all := own.setAll r.fields
  match r.failure with
  | none => all
  | some text => all.set "exc" (.text text)

def line (mode : Mode) (colored : Bool) (at_ : Instant) (r : Record) : String :=
  match mode with
  | .human => humanLine colored r
  | .verbose => verboseLine colored at_ r
  | .json => (Value.map (machineEntries at_ r)).compact

/-! ## Setting up -/

structure Setup where
  mode : Mode := .human
  level : Int := infoLevel
  colored : Bool := false
  deriving DecidableEq, Repr, Inhabited

namespace Setup

/-- The setup of the switches of a command line: the machine layout goes before the verbose one, and
quiet before verbose where they set the level. -/
def ofSwitches (verbose quiet machine colored : Bool) : Setup where
  mode := if machine then .json else if verbose then .verbose else .human
  level := if quiet then warningLevel else if verbose then debugLevel else infoLevel
  colored

/-- The level from which on records are written; a setup without a level writes warnings. -/
def floor (s : Setup) : Int := if s.level == 0 then warningLevel else s.level

/-- Whether a record is written. One whose level is not above zero never is. -/
def shows (s : Setup) (r : Record) : Bool := isOwn r.logger && 0 < r.level && s.floor ≤ r.level

def write (s : Setup) (at_ : Instant) (rs : List Record) : String :=
  Text.ofLines ((rs.filter s.shows).map (line s.mode s.colored at_))

end Setup
end CodeReview.Log
