import CodeReview.Text.Lines
/-!
# Paths

A path is a root, which is empty for a relative path, and components. Empty components and components
`.` carry nothing and are left out; `..` is a component like any other. Two leading slashes are a root of
their own, any other number of them is the root `/`.
-/
namespace CodeReview

structure Path where
  root : String
  parts : List String
  deriving DecidableEq, Repr, Inhabited

namespace Path

/-- The components of a text, cut at slashes; empty ones and `.` are left out. -/
def components (s : String) : List String :=
  ((Text.splitOn '/' s.toList).map String.ofList).filter fun p => p != "" && p != "."

def rootOf (s : String) : String :=
  match (s.toList.takeWhile (· == '/')).length with
  | 0 => ""
  | 2 => "//"
  | _ => "/"

def ofString (s : String) : Path := ⟨rootOf s, components s⟩

def allParts (p : Path) : List String := if p.root == "" then p.parts else p.root :: p.parts

/-- The text of a path; an empty relative path is `.`. -/
protected def toString (p : Path) : String :=
  if p.root == "" && p.parts.isEmpty then "." else p.root ++ "/".intercalate p.parts

def name (p : Path) : String := p.parts.getLast?.getD ""

def parent (p : Path) : Path := { p with parts := p.parts.dropLast }

/-- The ending of a file name: from its last dot on, unless that is the first or the last character. -/
def suffixOf (name : String) : String :=
  let cs := name.toList
  let tail := (cs.reverse.takeWhile (· != '.')).reverse
  let before := cs.length - tail.length
  if before ≤ 1 || tail.isEmpty then "" else String.ofList ('.' :: tail)

def suffix (p : Path) : String := suffixOf p.name

/-- The path that a second path leads to from a first: an absolute one stands for itself. -/
def join (p q : Path) : Path := if q.root == "" then { p with parts := p.parts ++ q.parts } else q

/-- Takes components one after the other, `..` undoing the one before it. -/
def climb (parts : List String) : List String :=
  (parts.foldl (fun done p => if p == ".." then done.drop 1 else p :: done) []).reverse

end Path
end CodeReview
