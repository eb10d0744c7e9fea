import CodeReview.Concrete.Node
import CodeReview.Failure
/-!
# Hosts

What a machine offers a parser: where the parsing runtime and the pack of grammars are installed and in
which versions, which grammars do not load, and the concrete tree that a grammar makes of a text. A host
does not change while a program runs, so two questions of one kind have the same answer.
-/
namespace CodeReview.Grammar

structure Package where
  place : Option String
  version : Option String
  deriving DecidableEq, Repr, Inhabited

def Package.isInstalled (p : Package) : Bool := p.place.isSome

structure Host where
  /-- The runtime that grammars run on. -/
  runtime : Package
  /-- The pack that the grammars come in. -/
  pack : Package
  /-- Why a grammar of the pack does not load; `none` for a grammar that does. -/
  broken : String → Option String
  /-- What a grammar makes of a text. -/
  tree : (grammar text : String) → Except Failure Concrete.Node

namespace Host

def packMissing : String := "No module named 'tree_sitter_language_pack'"

def bare : Host := ⟨⟨none, none⟩, ⟨none, none⟩, fun _ => none, fun _ _ => .error (.raised "" packMissing)⟩

end Host
end CodeReview.Grammar
