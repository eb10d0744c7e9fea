import CodeReview.Value.Basic
/-!
# Log records

What a run tells about itself while it goes on: a level, the name of the part that speaks, a message, and
possibly structured fields. Levels are integers, and five of them have names.
-/
namespace CodeReview.Log

def debugLevel : Int := 10
def infoLevel : Int := 20
def warningLevel : Int := 30
def errorLevel : Int := 40
def criticalLevel : Int := 50

def levelName (level : Int) : String :=
  if level == debugLevel then "DEBUG"
  else if level == infoLevel then "INFO"
  else if level == warningLevel then "WARNING"
  else if level == errorLevel then "ERROR"
  else if level == criticalLevel then "CRITICAL"
  else if level == 0 then "NOTSET"
  else "Level " ++ toString level

structure Record where
  level : Int
  /-- The part of the program that speaks. -/
  logger : String
  message : String
  /-- What the message tells in a form for machines. -/
  fields : Entries Value := []
  /-- The failure that is being reported, as text. -/
  failure : Option String := none

/-- The name of the program, which the names of its parts begin with. -/
def root : String := "vigil"

def part (name : String) : String := root ++ "." ++ name

/-- Whether a name is that of the program or of one of its parts. -/
def isOwn (logger : String) : Bool := logger == root || (root ++ ".").toList.isPrefixOf logger.toList

/-- The names that fields cannot have, since a message with fields already has parts of these names. -/
def takenNames : List String := ["self", "level", "msg"]

def clash? (fields : Entries Value) : Option String :=
  (fields.find? fun (k, _) => takenNames.contains k).map fun (k, _) =>
    "VigilLogger.structured() got multiple values for argument '" ++ k ++ "'"

def debug (logger message : String) : Record := { level := debugLevel, logger, message }

def info (logger message : String) : Record := { level := infoLevel, logger, message }

def warning (logger message : String) : Record := { level := warningLevel, logger, message }

def error (logger message : String) : Record := { level := errorLevel, logger, message }

end CodeReview.Log
