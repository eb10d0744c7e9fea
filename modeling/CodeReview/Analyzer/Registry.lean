import CodeReview.Analyzer.Bugs
import CodeReview.Analyzer.Complexity
import CodeReview.Analyzer.Performance
import CodeReview.Analyzer.Security
/-!
# Registries

The analyzers of a run, in the order in which they run, each under its own name.
-/
namespace CodeReview

inductive RegistryError where
  | taken (name : String)
  | absent (name : String) (available : List String)
  deriving DecidableEq, Repr

def RegistryError.message : RegistryError → String
  | .taken name => "Analyzer '" ++ name ++ "' already registered"
  | .absent name available =>
    "Analyzer '" ++ name ++ "' not registered. Available: " ++ Text.quotedList available

/-- Analyzers in the order in which they run. -/
structure Registry where
  analyzers : List Analyzer := []

namespace Registry

def names (r : Registry) : List String := r.analyzers.map (·.name)

def register (r : Registry) (a : Analyzer) : Except RegistryError Registry :=
  if r.names.contains a.name then .error (.taken a.name) else .ok ⟨r.analyzers ++ [a]⟩

def registerAll (r : Registry) (as : List Analyzer) : Except RegistryError Registry :=
  as.foldlM register r

def get (r : Registry) (name : String) : Except RegistryError Analyzer :=
  match r.analyzers.find? (·.name == name) with
  | some a => .ok a
  | none => .error (.absent name r.names)

def toValue (r : Registry) : Value := .map [("analyzers", .list (r.analyzers.map (·.toValue)))]

def builtinAnalyzers : List Analyzer :=
  [Analyzer.complexity, Analyzer.security, Analyzer.performance, Analyzer.bugs]

def builtin : Registry := ⟨builtinAnalyzers⟩

end Registry
end CodeReview
