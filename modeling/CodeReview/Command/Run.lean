import CodeReview.Command.Analyze
import CodeReview.Command.Show
import CodeReview.Log.Layout
/-!
# Running a command line

The general options are read first, then the settings are loaded, and only then is the rest of the line
read. Asking for the version is answered before anything else is looked at.
-/
namespace CodeReview.Command

def version : String := "0.1.0"

def answer (m : Machine) (s : Settings) : Request → Action ExitCode
  | .analyze folder choices => analyze m s folder choices
  | .file path asJson => showFile m s path asJson
  | .rules asJson => showRules s asJson
  | .check asJson => showChecks m asJson
  | .init force => makeSettings m force

def perform (m : Machine) (g : General) (rest : List String) : Action ExitCode := do
  if g.version then
    Action.printLine (Log.root ++ " " ++ version)
    return .success
  if let some path := g.settings then Action.demandFile m path
  match rest with
  | [] => throw (.refused .noCommand)
  | name :: args =>
    let name ← Action.demand (Name.read name)
    let settings ← loadSettings m g
    answer m settings (← Action.demand (Request.read name args))

/-- What has become of a command line: its exit code or why it stopped, the state it left, and how its log
is written. -/
structure Finished where
  result : Except Stop ExitCode
  state : State
  setup : Log.Setup

namespace Finished

def code (f : Finished) : ExitCode :=
  match f.result with
  | .ok code => code
  | .error stop => stop.code

/-- The log as it is written, all of it at one time. -/
def logText (f : Finished) (at_ : Calendar.Instant) : String := f.setup.write at_ f.state.log

end Finished

def run (m : Machine) (state : State) (args : List String) : Finished :=
  match General.read args with
  | .error e => ⟨.error (.refused e), state, {}⟩
  | .ok (g, rest) =>
    let (result, state) := ((perform m g rest).run).run state
    ⟨result, state, .ofSwitches g.verbose g.quiet g.machine false⟩

end CodeReview.Command
