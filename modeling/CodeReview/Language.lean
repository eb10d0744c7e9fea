import CodeReview.Path.Basic
/-!
# Languages

The languages whose files can be analyzed, and the file name endings that tell them. The ending decides
whatever its case; no ending in the table holds the letter k, the only one in the table's alphabet that
a letter outside ASCII becomes in lower case, so lowering ASCII letters decides.
-/
namespace CodeReview

inductive Language where
  | javascript
  | typescript
  | python
  | java
  | go
  | rust
  | cpp
  deriving DecidableEq, Repr, Inhabited

namespace Language

def all : List Language := [.javascript, .typescript, .python, .java, .go, .rust, .cpp]

def name : Language → String
  | .javascript => "javascript"
  | .typescript => "typescript"
  | .python => "python"
  | .java => "java"
  | .go => "go"
  | .rust => "rust"
  | .cpp => "cpp"

def ofName? (s : String) : Option Language := all.find? (·.name == s)

def endings : Language → List String
  | .javascript => [".js", ".jsx", ".mjs", ".cjs"]
  | .typescript => [".ts", ".tsx"]
  | .python => [".py"]
  | .java => [".java"]
  | .go => [".go"]
  | .rust => [".rs"]
  | .cpp => [".cpp", ".cc", ".cxx", ".hpp", ".h"]

/-- The language of a file, told by the ending of its path's last component. -/
def ofPath? (path : String) : Option Language :=
  let ending := (Path.ofString path).suffix.toLower
  all.find? (·.endings.contains ending)

end Language
end CodeReview
