import CodeReview.Path.Basic
import CodeReview.Path.Glob
import CodeReview.Text.Blank
/-!
# Selecting paths

A filter pattern with one of the characters `*`, `?`, `[` is a wildcard pattern: it selects a path that
it stands for as a whole, and a path whose last components it stands for one by one. A plain pattern of
one component selects the paths that have this component; a plain pattern of several selects the path
it is and everything below. Blanks around a pattern and slashes behind it do not count, and an empty
pattern selects nothing.

Excluding comes before including. Only plain patterns keep a whole directory from being visited:
whatever lies below a directory that one of them selects is selected too.
-/
namespace CodeReview

/-- A text in which every backslash is a slash, without a leading `./`. -/
def Path.forward (s : String) : String :=
  match s.toList.map fun c => if c == '\\' then '/' else c with
  | '.' :: '/' :: cs => String.ofList cs
  | cs => String.ofList cs

def Path.isGlob (pattern : String) : Bool := pattern.toList.any fun c => "*?[".contains c

/-- A pattern without the blanks around it and the slashes behind it. -/
def Path.cleanPattern (pattern : String) : String :=
  String.ofList (Text.dropEndWhile (· == '/') (Text.trim pattern.toList))

/-- Whether the last components of a path are, one by one, what the components of a pattern stand for.
A pattern with a root has to stand for all of a path with the same root. -/
def Path.matchesEnd (path pattern : Path) : Bool :=
  let ends (ps qs : List String) : Bool :=
    (ps.reverse.zip qs.reverse).all fun pq => Path.Glob.test pq.2 pq.1
  if pattern.root == "" then
    pattern.parts.length ≤ path.allParts.length && ends path.allParts pattern.parts
  else
    pattern.root == path.root && pattern.parts.length == path.parts.length &&
      ends path.parts pattern.parts

def Path.selects (pattern path : String) : Bool :=
  let path := Path.forward path
  let pattern := Path.cleanPattern pattern
  if pattern == "" then false
  else if Path.isGlob pattern then
    Path.Glob.test pattern path || (Path.ofString path).matchesEnd (Path.ofString pattern)
  else if pattern.contains '/' then
    path == pattern || (pattern ++ "/").toList.isPrefixOf path.toList
  else (Path.ofString path).allParts.contains pattern

def defaultExcludes : List String := ["node_modules", ".git", "dist", "build"]

structure Selection where
  exclude : List String := defaultExcludes
  include_ : List String := []
  deriving DecidableEq, Repr, Inhabited

namespace Selection

/-- Whether a path is analyzed: nothing excludes it and, if anything is included, something includes
it. -/
def accepts (s : Selection) (path : String) : Bool :=
  !(s.exclude.any (Path.selects · path)) &&
    (s.include_.isEmpty || s.include_.any (Path.selects · path))

def prunes (s : Selection) (directory : String) : Bool :=
  s.exclude.any fun p => !Path.isGlob p && Path.selects p directory

end Selection
end CodeReview
