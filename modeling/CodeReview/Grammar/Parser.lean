import CodeReview.Grammar.Host
import CodeReview.Grammar.Normal
/-!
# Parsing

A text is parsed by the grammars of its language in the order of the table: the first tree without an
error is used, and if every tree has one, the first tree. A strict parser refuses a tree that has errors
and says where the first of them is; a tolerant parser goes on with it.

A parser imports the pack of grammars when it is first used. It remembers whether that has failed and which
grammars it has loaded (`Session`), and asks its host for the others only; a grammar that does not load is
not remembered, and is asked for again.
-/
namespace CodeReview.Grammar

open Syntax (Deadline)

inductive ParseError where
  /-- No grammar table has this name. -/
  | unknownLanguage (language : String)
  /-- The pack of grammars is not installed. -/
  | noPack
  /-- A grammar that the text had to be tried with does not load. -/
  | noGrammar (language : Language) (grammar reason : String)
  /-- The text does not have the form its language asks for. -/
  | malformed (language : Language) (first : Concrete.Located)
  /-- A grammar failed, or the time budget was spent. -/
  | failed (why : Failure)

/-- What a fault is called, with its place: rows count from zero and columns count bytes. -/
def describe (l : Concrete.Located) : String :=
  let place := "at line " ++ toString (l.point.row + 1) ++ ", column " ++ toString (l.point.column + 1)
  match l.fault with
  | .missing type => "Missing '" ++ type ++ "' " ++ place
  | .unexpected => "Unexpected token " ++ place
  | .unlocated => "Syntax error " ++ place

namespace ParseError

def message : ParseError → String
  | unknownLanguage language => "Unsupported language: " ++ language
  | noPack => "tree-sitter-language-pack not installed: " ++ Host.packMissing
  | noGrammar _ grammar reason => "No parser available for " ++ grammar ++ ": " ++ reason
  | malformed _ first => describe first
  | failed why => why.message

/-- The line and the column of what is wrong with a text, counted from one; other reasons have no place. -/
def place? : ParseError → Option (Int × Int)
  | malformed _ first => some (first.point.row + 1, first.point.column + 1)
  | _ => none

end ParseError

/-- What a parser remembers from one call to the next. -/
structure Session where
  /-- Whether the pack of grammars has been imported. -/
  imported : Bool := false
  /-- How the import of the pack has failed. -/
  refusal : Option ParseError := none
  /-- The grammars that have been loaded, in the order of loading. -/
  loaded : List String := []
  deriving Inhabited

inductive Event where
  /-- It asks for a grammar. -/
  | asked (grammar : String)
  /-- A grammar it has asked for is loaded. -/
  | loaded (grammar : String)
  deriving DecidableEq, Repr

structure Parsed (α : Type) where
  outcome : Except ParseError α
  session : Session
  events : List Event

def Parsed.andThen {α β : Type} (p : Parsed α) (next : α → Session → Parsed β) : Parsed β :=
  match p.outcome with
  | .error e => ⟨.error e, p.session, p.events⟩
  | .ok a =>
    let q := next a p.session
    { q with events := p.events ++ q.events }

/-- Imports the pack of grammars, unless that has been tried before. -/
def importPack (host : Host) (session : Session) : Parsed Unit :=
  if session.imported then ⟨.ok (), session, []⟩
  else match session.refusal with
    | some e => ⟨.error e, session, []⟩
    | none =>
      if host.pack.isInstalled then ⟨.ok (), { session with imported := true }, []⟩
      else ⟨.error .noPack, { session with refusal := some .noPack }, []⟩

def checkAvailable (host : Host) (session : Session) : Bool × Session :=
  let p := importPack host session
  (p.outcome.toBool, p.session)

def load (host : Host) (language : Language) (session : Session) (grammar : String) : Parsed Unit :=
  if session.loaded.contains grammar then ⟨.ok (), session, []⟩
  else match host.broken grammar with
    | some reason => ⟨.error (.noGrammar language grammar reason), session, [.asked grammar]⟩
    | none => ⟨.ok (), { session with loaded := session.loaded ++ [grammar] }, [.asked grammar, .loaded grammar]⟩

def ready (host : Host) (language : Language) (session : Session) (grammar : String) : Parsed Unit :=
  (importPack host session).andThen fun _ session => load host language session grammar

def treeOf (host : Host) (text : String) (language : Language) (session : Session) (grammar : String) :
    Parsed Concrete.Node :=
  (ready host language session grammar).andThen fun _ session =>
    ⟨(host.tree grammar text).mapError .failed, session, []⟩

/-- The first tree without an error, `first` being the tree to fall back on. -/
def firstClean (host : Host) (text : String) (language : Language) (first : Concrete.Node) :
    (grammars : List String) → Session → Parsed Concrete.Node
  | [], session => ⟨.ok first, session, []⟩
  | grammar :: rest, session =>
    (treeOf host text language session grammar).andThen fun tree session =>
      if tree.label.hasError then firstClean host text language first rest session
      else ⟨.ok tree, session, []⟩

/-- The tree that is used for a text: the first without an error, or else that of the first grammar. -/
def chooseTree (host : Host) (text : String) (table : Table) (session : Session) : Parsed Concrete.Node :=
  (treeOf host text table.language session table.grammar).andThen fun tree session =>
    if tree.label.hasError then firstClean host text table.language tree table.fallbacks session
    else ⟨.ok tree, session, []⟩

def canonical (tolerant : Bool) (table : Table) (text : String) (tree : Concrete.Node)
    (deadline : Option Deadline) : Except ParseError Syntax.Node × Option Deadline :=
  if tree.label.hasError && !tolerant then
    (.error (.malformed table.language (Concrete.firstFault tree)), deadline)
  else
    let (outcome, deadline) := normalize table (Source.ofText text) tree deadline
    (outcome.mapError .failed, deadline)

def parse (host : Host) (tolerant : Bool) (session : Session) (text language : String)
    (deadline : Option Deadline) : Parsed Syntax.Node × Option Deadline :=
  match Language.ofName? language with
  | none => (⟨.error (.unknownLanguage language), session, []⟩, deadline)
  | some language =>
    let table := tableOf language
    let chosen := chooseTree host text table session
    match chosen.outcome with
    | .error e => (⟨.error e, chosen.session, chosen.events⟩, deadline)
    | .ok tree =>
      let (outcome, deadline) := canonical tolerant table text tree deadline
      (⟨outcome, chosen.session, chosen.events⟩, deadline)

end CodeReview.Grammar
