import CodeReview.Calendar.Clock
import CodeReview.Command.Line
import CodeReview.Files.Basic
import CodeReview.Grammar.Host
import CodeReview.Log.Record
import CodeReview.Settings.Load
import CodeReview.Value.Literal
/-!
# What commands do

A command works on a machine that does not change, and on a state that does: the files, the clock, what has
been printed and what has been told. It may stop before its end, and what it has done until then stays done.
-/
namespace CodeReview.Command

open Calendar (Clock)

/-- What a command finds and cannot change. -/
structure Machine where
  /-- The folder of the run. -/
  here : Place
  host : Grammar.Host
  env : Settings.Environment
  /-- The readings of the clock of each file's time budget. -/
  timer : Nat → Number.Quantity := fun _ => .decimal 0.0
  /-- How long the analysis of a file takes, in seconds. -/
  elapsed : Float := 0.0

/-- What a command can change. -/
structure State where
  files : Files
  clock : Clock
  /-- What has been printed. -/
  out : String := ""
  log : List Log.Record := []

inductive ExitCode where
  | success
  | failure
  /-- There are findings that make the run fail. -/
  | findings
  /-- The command line was refused. -/
  | usage
  deriving DecidableEq, Repr, Inhabited

def ExitCode.toNat : ExitCode → Nat
  | .success => 0
  | .failure => 1
  | .findings => 2
  | .usage => 2

/-- Something a command does not deal with. -/
inductive Fault where
  /-- A file or a folder could not be written. -/
  | file (path : String) (e : FileError)
  /-- Where a path was asked for, something else was set. -/
  | notAPath (value : Value)
  /-- The analysis of a file could not begin. -/
  | analysis (why : Failure)

def Fault.message : Fault → String
  | .file path e => e.message path
  | .notAPath value => "a path was expected, not " ++ value.literal
  | .analysis why => why.message

inductive Stop where
  | refused (e : UsageError)
  /-- What went wrong has been told. -/
  | failed
  | fault (f : Fault)

def Stop.code : Stop → ExitCode
  | .refused _ => .usage
  | .failed => .failure
  | .fault _ => .failure

abbrev Action := ExceptT Stop (StateM State)

namespace Action

def tell (r : Log.Record) : Action Unit := modify fun s => { s with log := s.log ++ [r] }

def tellAll (rs : List Log.Record) : Action Unit := modify fun s => { s with log := s.log ++ rs }

def print (text : String) : Action Unit := modify fun s => { s with out := s.out ++ text }

def printLine (text : String) : Action Unit := print (text ++ "\n")

def fail {α : Type} (message : String) : Action α := do
  tell (Log.error Log.root message)
  throw .failed

def demand {α : Type} : Except UsageError α → Action α
  | .ok a => pure a
  | .error e => throw (.refused e)

/-- Changes the files; the path is the one that is named if that cannot be done. -/
def change (path : Path) (f : Files → Except FileError Files) : Action Unit := do
  match f (← get).files with
  | .ok files => modify fun s => { s with files }
  | .error e => throw (.fault (.file path.toString e))

def makeFolders (m : Machine) (path : Path) : Action Unit :=
  change path fun fs => fs.makeFolders m.here path

def writeText (m : Machine) (path : Path) (text : String) : Action Unit :=
  change path fun fs => fs.write m.here path (Text.Utf8.encode text)

def appendText (m : Machine) (path : Path) (text : String) : Action Unit :=
  change path fun fs => fs.append m.here path (Text.Utf8.encode text)

def standing (m : Machine) (path : Path) : Action (Option FileItem) := do
  let files := (← get).files
  match files.follow m.here path with
  | .ok p => return files.find? p
  | .error _ => return none

def demandFolder (m : Machine) (path : Path) : Action Unit := do
  match ← standing m path with
  | some .folder => return
  | _ => throw (.refused (.noSuchFolder path.toString))

def demandFile (m : Machine) (path : Path) : Action Unit := do
  match ← standing m path with
  | some (.file _) => return
  | _ => throw (.refused (.noSuchFile path.toString))

end Action

/-! ## Settings -/

/-- The report of settings that cannot be loaded; a missing file speaks for itself. -/
def loadReport (e : Settings.LoadError) : String :=
  match e with
  | .missing _ => e.message
  | .unreadable _ .missing => e.message
  | _ => "Failed to load config: " ++ e.message

def loadSettings (m : Machine) (g : General) : Action Settings := do
  match Settings.load (← get).files m.here m.env g.settings true with
  | .error e => Action.fail (loadReport e)
  | .ok loaded =>
    if let some path := loaded.path then
      Action.tell (Log.debug Log.root ("Loaded config from: " ++ path))
    return loaded.settings

end CodeReview.Command
