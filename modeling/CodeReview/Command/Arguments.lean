import CodeReview.Text.Quoted
/-!
# Arguments of a command line

Options have a long name, written with two dashes, and possibly a letter, written with one. An option is a
switch or takes a value: behind an equals sign or as the next argument after a long name, in the same or in
the next argument after a letter. Several letters may share one dash. All other arguments are operands;
behind `--` there are only operands.
-/
namespace CodeReview.Command

structure OptionSpec where
  name : String
  letter : Option Char := none
  /-- Whether the option takes a value. -/
  valued : Bool := false
  deriving DecidableEq, Repr

inductive UsageError where
  | unknownOption (shown : String)
  | missingValue (name : String)
  | unexpectedValue (name : String)
  | missingOperand (what : String)
  | unexpectedOperand (shown : String)
  | unknownCommand (name : String)
  | noCommand
  | noSuchFile (path : String)
  | noSuchFolder (path : String)
  deriving DecidableEq, Repr

def UsageError.message : UsageError → String
  | .unknownOption shown => "No such option: " ++ shown
  | .missingValue name => "Option '--" ++ name ++ "' requires an argument."
  | .unexpectedValue name => "Option '--" ++ name ++ "' does not take a value."
  | .missingOperand what => "Missing argument '" ++ what ++ "'."
  | .unexpectedOperand shown => "Got unexpected extra argument (" ++ shown ++ ")"
  | .unknownCommand name => "No such command '" ++ name ++ "'."
  | .noCommand => "Missing command."
  | .noSuchFile path => "File '" ++ path ++ "' does not exist."
  | .noSuchFolder path => "Directory '" ++ path ++ "' does not exist."

structure Arguments where
  /-- The options and their values, in the order in which they were given; a switch has an empty one. -/
  options : List (String × String) := []
  operands : List String := []
  deriving DecidableEq, Repr, Inhabited

namespace Arguments

def has (a : Arguments) (name : String) : Bool := a.options.any (·.1 == name)

def values (a : Arguments) (name : String) : List String :=
  (a.options.filter (·.1 == name)).map (·.2)

def value? (a : Arguments) (name : String) : Option String := (a.values name).getLast?

def note (a : Arguments) (o : OptionSpec) (value : String) : Arguments :=
  { a with options := a.options ++ [(o.name, value)] }

def splitLong (cs : List Char) : String × Option String :=
  let name := cs.takeWhile (· != '=')
  (String.ofList name, ((cs.drop name.length).tail?).map String.ofList)

/-- What an argument is found to be, given what has been read before it. -/
inductive Found where
  /-- The end of the options. -/
  | stop
  | operand
  /-- Options with their values. -/
  | complete (done : Arguments)
  /-- An option whose value is the next argument, and the options before it. -/
  | waiting (done : Arguments) (o : OptionSpec)

/-- Reads letters that share a dash. -/
def readLetters (specs : List OptionSpec) (done : Arguments) : List Char → Except UsageError Found
  | [] => .ok (.complete done)
  | c :: cs =>
    match specs.find? (·.letter == some c) with
    | none => .error (.unknownOption (String.ofList ['-', c]))
    | some o =>
      if !o.valued then readLetters specs (done.note o "") cs
      else if cs.isEmpty then .ok (.waiting done o)
      else .ok (.complete (done.note o (String.ofList cs)))

def readLong (specs : List OptionSpec) (done : Arguments) (cs : List Char) : Except UsageError Found :=
  let (name, value) := splitLong cs
  match specs.find? (·.name == name), value with
  | none, _ => .error (.unknownOption ("--" ++ name))
  | some o, none => .ok (if o.valued then .waiting done o else .complete (done.note o ""))
  | some o, some v => if o.valued then .ok (.complete (done.note o v)) else .error (.unexpectedValue o.name)

/-- Reads one argument; a dash alone is an operand. -/
def readOne (specs : List OptionSpec) (done : Arguments) (arg : String) : Except UsageError Found :=
  match arg.toList with
  | ['-', '-'] => .ok .stop
  | '-' :: '-' :: cs => readLong specs done cs
  | '-' :: c :: cs => readLetters specs done (c :: cs)
  | _ => .ok .operand

/-- Reads arguments, up to the first operand or, if options may stand between operands, to the end. What
has not been read is given back. -/
def readFrom (specs : List OptionSpec) (mixed : Bool) (done : Arguments) :
    List String → Except UsageError (Arguments × List String)
  | [] => .ok (done, [])
  | arg :: rest =>
    match readOne specs done arg, rest with
    | .error e, _ => .error e
    | .ok .stop, rest => .ok (done, rest)
    | .ok .operand, rest =>
      if mixed then readFrom specs mixed { done with operands := done.operands ++ [arg] } rest
      else .ok (done, arg :: rest)
    | .ok (.complete done), rest => readFrom specs mixed done rest
    | .ok (.waiting _ o), [] => .error (.missingValue o.name)
    | .ok (.waiting done o), value :: rest => readFrom specs mixed (done.note o value) rest

/-- Reads the options before the first operand, and gives back what follows them. -/
def readLeading (specs : List OptionSpec) (args : List String) :
    Except UsageError (Arguments × List String) :=
  readFrom specs false {} args

def readAll (specs : List OptionSpec) (most : Nat) (args : List String) :
    Except UsageError Arguments := do
  let (done, rest) ← readFrom specs true {} args
  let operands := done.operands ++ rest
  match operands.drop most with
  | [] => return { done with operands }
  | extra :: _ => .error (.unexpectedOperand extra)

end Arguments
end CodeReview.Command
