import CodeReview.Command.Run
import CodeReview.Number.Read
/-!
# The program

Carries a command line from the world to `Command.run` and what becomes of it back. The files of a run are
those that the command line names and, for the analysis of a repository, those whose names stand on standard
input, one a line; a name that cannot be read is passed over. The clock stands at the second that the
environment gives for reproducible runs. No grammars are at hand here, so files are reported as not
analyzable.
-/
namespace CodeReview.Program

open Command (General)

def readFile? (name : String) : IO (Option Text.Bytes) := do
  try
    return some (← IO.FS.readBinFile name).data.toList
  catch _ => return none

def readFiles (here : Place) (names : List String) : IO Files :=
  names.foldlM (fun fs name => do
    match ← readFile? name with
    | some content => return fs.addFile (Files.placeOf here (Path.ofString name)) content
    | none => return fs) (({} : Files).addFolder here)

/-- An argument, and what stands behind an equals sign in it. -/
def namesIn (arg : String) : List String :=
  arg :: ((arg.toList.dropWhile (· != '=')).tail?).toList.map String.ofList

def settingsNames (args : List String) : List String :=
  let named := match General.read args with
    | .ok (g, _) => g.settings.toList
    | .error _ => []
  (named ++ Settings.candidates).map (·.toString)

def asksForListing (args : List String) : Bool :=
  match General.read args with
  | .ok (_, name :: _) => name == Command.Name.analyze.toString
  | _ => false

/-- The names on standard input, if a command line asks for them. -/
def listedNames (args : List String) : IO (List String) := do
  if asksForListing args then
    return ((← (← IO.getStdin).readToEnd).splitOn "\n").filter (· != "")
  else return []

def variableNames (content : Text.Bytes) : List String :=
  (Settings.pieces (String.ofList (Text.Utf8.decodeLossy content))).filterMap fun p =>
    match p with
    | .reference name => some name
    | .char _ => none

def readEnvironment (names : List String) : IO Settings.Environment := do
  let contents ← names.filterMapM readFile?
  let set ← (contents.flatMap variableNames).mapM fun name => do return (name, ← IO.getEnv name)
  return fun name => (set.lookup name).join

def readClock : IO Calendar.Clock := do
  let second := ((← IO.getEnv "SOURCE_DATE_EPOCH").bind fun s => Number.readInt s.toList).getD 0
  return .ticking ⟨second * 1000000⟩ 0

def writeChanges (before after : Files) : IO Unit :=
  after.items.forM fun (p, item) => do
    if before.find? p != some item then
      match item with
      | .folder => IO.FS.createDirAll (Files.placeText p)
      | .file content => IO.FS.writeBinFile (Files.placeText p) ⟨content.toArray⟩

def stopText : Except Command.Stop Command.ExitCode → String
  | .error (.refused e) => "Error: " ++ e.message ++ "\n"
  | .error (.fault f) => "Error: " ++ f.message ++ "\n"
  | _ => ""

def runLine (args : List String) : IO UInt32 := do
  let here := (Path.ofString (toString (← IO.currentDir))).parts
  let settings := settingsNames args
  let files ← readFiles here (settings ++ args.flatMap namesIn ++ (← listedNames args))
  let env ← readEnvironment settings
  let clock ← readClock
  let done := Command.run { here, host := .bare, env } { files, clock } args
  writeChanges files done.state.files
  IO.print done.state.out
  IO.eprint (done.logText clock.read.1 ++ stopText done.result)
  return UInt32.ofNat done.code.toNat

end CodeReview.Program

def main (args : List String) : IO UInt32 := CodeReview.Program.runLine args
