import CodeReview.Files.Basic
import CodeReview.Path.Filter
import CodeReview.Run.Entry
/-!
# Listing a folder

The files below a folder, by their paths from it, in the order of these paths. Folders that a selection
prunes are passed over with everything below them; nothing else of a selection counts here, so that files
it refuses one by one are listed and can be counted.
-/
namespace CodeReview.Files

open Text (Bytes)

def speaker : String := Log.part "sources"

/-- What stands behind a folder in a place, if the place is below the folder. -/
def behind? (root : Place) (p : Place) : Option Place :=
  if root.isPrefixOf p && root.length < p.length then some (p.drop root.length) else none

/-- The files below a folder, by their places from it. -/
def below (fs : Files) (root : Place) : List (Place × Bytes) :=
  fs.items.filterMap fun (p, i) =>
    match i with
    | .folder => none
    | .file content => (behind? root p).map fun rest => (rest, content)

def relative (p : Place) : String := "/".intercalate p

def foldersAbove (p : Place) : List Place := ((List.range p.length).drop 1).map p.take

/-- Whether a file is passed over with one of the folders it lies in. -/
def isPruned (selection : Selection) (p : Place) : Bool :=
  (foldersAbove p).any fun folder => selection.prunes (relative folder)

/-- The files below a folder, without those in pruned folders, in the order of their paths. -/
def listed (fs : Files) (root : Place) (selection : Option Selection) : List (String × Bytes) :=
  let kept := (fs.below root).filter fun e =>
    match selection with
    | none => true
    | some s => !isPruned s e.1
  (kept.map fun e => (relative e.1, e.2)).mergeSort fun a b => a.1 ≤ b.1

def paths (fs : Files) (root : Place) (selection : Option Selection) : List String :=
  (fs.listed root selection).map (·.1)

def load (encoding : String) (content : Bytes) : Except Failure String :=
  match Text.Encoding.ofName? encoding with
  | none => .error (.undecodable (Text.Encoding.unknownMessage encoding))
  | some e => (textOf e content).mapError .undecodable

def listing (fs : Files) (root : Place) (selection : Option Selection) (encoding : String) : Run.Listing :=
  let found := fs.listed root selection
  { entries := found.map fun e => ⟨e.1, load encoding e.2⟩
    log := [Log.debug speaker ("Found " ++ toString found.length ++ " files under " ++ placeText root)] }

end CodeReview.Files
