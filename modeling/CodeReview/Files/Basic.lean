import CodeReview.Path.Basic
import CodeReview.Text.Encoding
import CodeReview.Text.Lines
import CodeReview.Text.Quoted
/-!
# File trees

A file tree is a table of folders and files by their components from the root, the root itself being a
folder. `follow` goes where a path leads, one component at a time, so that a path through something that is
missing or no folder leads nowhere, even if it comes back by `..`.
-/
namespace CodeReview

open Text (Bytes)

/-- The components of a place in a file tree, from the root on. -/
abbrev Place := List String

inductive FileItem where
  | folder
  | file (content : Bytes)
  deriving DecidableEq, Repr

inductive FileError where
  | missing
  | taken
  | notAFolder
  | isAFolder
  deriving DecidableEq, Repr

/-- The report of a place, under the path by which it was named. -/
def FileError.message (path : String) : FileError → String
  | .missing => "[Errno 2] No such file or directory: " ++ Text.quoted path
  | .taken => "[Errno 17] File exists: " ++ Text.quoted path
  | .notAFolder => "[Errno 20] Not a directory: " ++ Text.quoted path
  | .isAFolder => "[Errno 21] Is a directory: " ++ Text.quoted path

structure Files where
  items : List (Place × FileItem) := []
  deriving DecidableEq, Repr, Inhabited

namespace Files

def find? (fs : Files) (p : Place) : Option FileItem :=
  if p.isEmpty then some .folder else fs.items.lookup p

def put (fs : Files) (p : Place) (i : FileItem) : Files :=
  if (fs.items.lookup p).isSome then ⟨fs.items.map fun e => if e.1 == p then (p, i) else e⟩
  else ⟨fs.items ++ [(p, i)]⟩

def isFolder (fs : Files) (p : Place) : Bool := fs.find? p == some .folder

def walk (fs : Files) : (at_ : Place) → List String → Except FileError Place
  | at_, [] => .ok at_
  | at_, part :: rest =>
    if !fs.isFolder at_ then .error .notAFolder
    else if part == ".." then walk fs at_.dropLast rest
    else
      let next := at_ ++ [part]
      if (fs.find? next).isSome then walk fs next rest else .error .missing

def follow (fs : Files) (here : Place) (path : Path) : Except FileError Place :=
  fs.walk (if path.root == "" then here else []) path.parts

def leads (fs : Files) (here : Place) (path : Path) : Bool :=
  match fs.follow here path with
  | .ok _ => true
  | .error _ => false

def read (fs : Files) (here : Place) (path : Path) : Except FileError Bytes := do
  match fs.find? (← fs.follow here path) with
  | some (.file content) => .ok content
  | some .folder => .error .isAFolder
  | none => .error .missing

/-! ## Writing -/

/-- Makes a folder at each component of a path where nothing stands yet. -/
def makeFoldersFrom (fs : Files) : (at_ : Place) → List String → Except FileError Files
  | _, [] => .ok fs
  | at_, part :: rest =>
    if part == ".." then makeFoldersFrom fs at_.dropLast rest
    else
      let next := at_ ++ [part]
      match fs.find? next with
      | some .folder => makeFoldersFrom fs next rest
      | some (.file _) => .error (if rest.isEmpty then .taken else .notAFolder)
      | none => makeFoldersFrom (fs.put next .folder) next rest

/-- Makes the folders that a path leads through, the last included. -/
def makeFolders (fs : Files) (here : Place) (path : Path) : Except FileError Files :=
  fs.makeFoldersFrom (if path.root == "" then here else []) path.parts

/-- The place of a path's last component below the folder that the others lead to; a path without
components, or one that ends in `..`, is itself a folder. -/
def target (fs : Files) (here : Place) (path : Path) : Except FileError Place := do
  if path.parts.isEmpty || path.name == ".." then .error .isAFolder
  else
    let folder ← fs.follow here path.parent
    if fs.isFolder folder then .ok (folder ++ [path.name]) else .error .notAFolder

def write (fs : Files) (here : Place) (path : Path) (content : Bytes) : Except FileError Files := do
  let p ← fs.target here path
  if fs.isFolder p then .error .isAFolder else .ok (fs.put p (.file content))

def append (fs : Files) (here : Place) (path : Path) (content : Bytes) : Except FileError Files := do
  let p ← fs.target here path
  match fs.find? p with
  | some .folder => .error .isAFolder
  | some (.file old) => .ok (fs.put p (.file (old ++ content)))
  | none => .ok (fs.put p (.file content))

/-- Puts a file at a place, with the folders above it. -/
def addFile (fs : Files) (p : Place) (content : Bytes) : Files :=
  ((List.range p.length).drop 1).foldl (fun fs n => fs.put (p.take n) .folder) fs |>.put p (.file content)

/-- Puts a folder at a place, with the folders above it. -/
def addFolder (fs : Files) (p : Place) : Files :=
  ((List.range (p.length + 1)).drop 1).foldl (fun fs n => fs.put (p.take n) .folder) fs

/-! ## Places as paths -/

def pathOf (p : Place) : Path := ⟨"/", p⟩

/-- The place that a path names from a folder, `..` undoing the component before it. -/
def placeOf (here : Place) (path : Path) : Place :=
  Path.climb ((if path.root == "" then here else []) ++ path.parts)

def placeText (p : Place) : String := (pathOf p).toString

/-! ## Reading text -/

/-- The text of bytes in an encoding, every line break a line feed. -/
def textOf (encoding : Text.Encoding) (content : Bytes) : Except String String :=
  (encoding.decode content).map Text.universal

end Files
end CodeReview
