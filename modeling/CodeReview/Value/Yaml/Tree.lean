import CodeReview.Entries
import CodeReview.Value.Yaml.Token
/-!
# The tree of a YAML document

The tokens of a document make one node: a scalar, a list, or a table whose keys may be any nodes. A node may have
a tag and a name; where the name is used behind it, the node stands once more, and inside it a mark stands
for it.

All readers take fuel: each either takes a token or hands on to a reader that does, and a node is handed on at
most twice, so three times the number of tokens is enough.
-/
namespace CodeReview.Value.Yaml

/-- A node of a document and where it begins. A table keeps what was wrong with what it was to take in. -/
inductive Node where
  | scalar (start : Mark) (tag : Option Tag) (content : String) (plain : Bool)
  | list (start : Mark) (tag : Option Tag) (items : List Node)
  | table (start : Mark) (tag : Option Tag) (wrong : List Fault) (entries : List (Node × Node))
  /-- A node that this one is inside of. -/
  | around (start : Mark)
  deriving Inhabited

/-- A node of which nothing is written. -/
def Node.empty (start : Mark) (tag : Option Tag) : Node := .scalar start tag "" tag.isNone

def Node.start : Node → Mark
  | .scalar start _ _ _ | .list start _ _ | .table start _ _ _ | .around start => start

/-- What stands before a node: its name, its tag, and where the node begins with these. -/
structure Properties where
  name : Option String
  tag : Option Tag
  start : Mark

/-- The tokens that are still to be taken, what handles stand for, where the nodes of the names given so far begin,
and the nodes of those that are complete. -/
structure Feed where
  lexemes : List Lexeme
  handles : Handles := commonHandles
  names : Entries Mark := []
  nodes : Entries Node := []

abbrev Reading := StateT Feed (Except Fault)

namespace Reading

/-- The next token; what is wrong with the document is met here. -/
def peek : Reading Lexeme := do
  match (← get).lexemes with
  | [] => throw .outOfFuel
  | l :: _ =>
    match l.token with
    | .fault why => throw why
    | _ => return l

def skip : Reading Unit := modify fun f => { f with lexemes := f.lexemes.tail }

def at_ (ts : List Token) : Reading Bool := return ts.contains (← peek).token

def skipIf (t : Token) : Reading (Option Mark) := do
  let l ← peek
  if l.token == t then
    skip
    return some l.stop
  else return none

def expect (t : Token) (otherwise : Lexeme → Fault) : Reading Unit := do
  let l ← peek
  if l.token == t then skip else throw (otherwise l)

/-! ## Properties -/

def readName : Reading (Option String) := do
  match (← peek).token with
  | .named name =>
    skip
    return some name
  | _ => return none

def readTag : Reading (Option (TagText × Mark)) := do
  let l ← peek
  match l.token with
  | .tagged written =>
    skip
    return some (written, l.start)
  | _ => return none

def resolveTag (start : Mark) (written : TagText × Mark) : Reading Tag := do
  match written.1.resolve (← get).handles with
  | some tag => return tag
  | none => throw (.during .node start written.2 (.unknownHandle (written.1.handle.getD "")))

/-- The name and the tag of the node that follows, in either order. -/
def readProperties : Reading Properties := do
  let start := (← peek).start
  let name ← readName
  let written ← readTag
  let name ← if name.isNone && written.isSome then readName else pure name
  return { name, tag := ← written.mapM (resolveTag start), start }

/-- Gives a node its name; no name is given twice. -/
def register (p : Properties) : Reading Unit := do
  if let some name := p.name then
    if let some first := (← get).names.get? name then
      throw (.during (.repeated name) first p.start .nameTwice)
    modify fun f => { f with names := f.names.set name p.start }

def keep (name : Option String) (n : Node) : Reading Unit := do
  if let some name := name then modify fun f => { f with nodes := f.nodes.set name n }

def nodeOf (name : String) (place : Mark) : Reading Node := do
  let f ← get
  match f.nodes.get? name, f.names.get? name with
  | some n, _ => return n
  | none, some start => return .around start
  | none, none => throw (.at place (.unknownName name))

/-! ## Nodes -/

/-- Where a node may stand: inside brackets, in a block, or in a block as a key or its value, where the items of
a list need not be indented. -/
inductive Spot where
  | flow
  | block
  | entry
  deriving DecidableEq

inductive Shape where
  | scalar (content : String) (plain : Bool)
  | flowList
  | flowTable
  | blockList
  | blockTable
  /-- The items of a list that are not indented. -/
  | items
  | empty

/-- What follows the properties of a node; where it has some, nothing may. -/
def shape (spot : Spot) (p : Properties) : Reading Shape := do
  let l ← peek
  match spot, l.token with
  | _, .scalar content plain => return .scalar content plain
  | _, .openList => return .flowList
  | _, .openTable => return .flowTable
  | .entry, .dash => return .items
  | .block, .beginList | .entry, .beginList => return .blockList
  | .block, .beginTable | .entry, .beginTable => return .blockTable
  | _, _ =>
    if p.name.isSome || p.tag.isSome then return .empty
    else
      let work : Work := if spot == .flow then .flowNode else .blockNode
      throw (.during work p.start l.start (.otherToken "the node content" l.token.label))

mutual

def node : (fuel : Nat) → Spot → Reading Node
  | 0, _ => throw .outOfFuel
  | fuel + 1, spot => do
    let l ← peek
    match l.token with
    | .sameAs name =>
      skip
      nodeOf name l.start
    | _ =>
      let p ← readProperties
      let shape ← shape spot p
      register p
      let n ← content fuel p shape
      keep p.name n
      return n

def content : (fuel : Nat) → Properties → Shape → Reading Node
  | 0, _, _ => throw .outOfFuel
  | fuel + 1, p, shape => do
    let start := (← peek).start
    match shape with
    | .scalar s plain =>
      skip
      return .scalar p.start p.tag s plain
    | .flowList =>
      skip
      return .list p.start p.tag (← flowItems fuel start true)
    | .flowTable =>
      skip
      return .table p.start p.tag [] (← flowEntries fuel start true)
    | .blockList =>
      skip
      let ns ← items fuel [.dash, .endBlock]
      expect .endBlock fun l => .during .blockList start l.start (.otherToken "<block end>" l.token.label)
      return .list p.start p.tag ns
    | .blockTable =>
      skip
      return .table p.start p.tag [] (← entries fuel start)
    | .items => return .list p.start p.tag (← items fuel [.dash, .key, .colon, .endBlock])
    | .empty => return .empty p.start p.tag

/-- A node, or an empty one before one of some tokens. -/
def nodeUnless : (fuel : Nat) → Spot → (stops : List Token) → (start : Mark) → Reading Node
  | 0, _, _, _ => throw .outOfFuel
  | fuel + 1, spot, stops, start => do if ← at_ stops then return .empty start none else node fuel spot

def items : (fuel : Nat) → (stops : List Token) → Reading (List Node)
  | 0, _ => throw .outOfFuel
  | fuel + 1, stops => do
    match ← skipIf .dash with
    | some behind =>
      let n ← nodeUnless fuel .block stops behind
      return n :: (← items fuel stops)
    | none => return []

/-- The value of a key, behind a colon, or nothing. -/
def member : (fuel : Nat) → Spot → (stops : List Token) → Reading Node
  | 0, _, _ => throw .outOfFuel
  | fuel + 1, spot, stops => do
    match ← skipIf .colon with
    | some behind => nodeUnless fuel spot stops behind
    | none => return .empty (← peek).start none

/-- The entries of a table that begins at a mark, up to the end of its block. -/
def entries : (fuel : Nat) → (start : Mark) → Reading (List (Node × Node))
  | 0, _ => throw .outOfFuel
  | fuel + 1, start => do
    let stops : List Token := [.key, .colon, .endBlock]
    match ← skipIf .key with
    | some behind =>
      let k ← nodeUnless fuel .entry stops behind
      let v ← member fuel .entry stops
      return (k, v) :: (← entries fuel start)
    | none =>
      expect .endBlock fun l => .during .blockTable start l.start (.otherToken "<block end>" l.token.label)
      return []

/-- The items of a list in brackets that begin at a mark; one with a key is a table of one entry. -/
def flowItems : (fuel : Nat) → (start : Mark) → (first : Bool) → Reading (List Node)
  | 0, _, _ => throw .outOfFuel
  | fuel + 1, start, first => do
    let stops : List Token := [.comma, .closeList]
    if (← skipIf .closeList).isSome then return []
    if !first then
      expect .comma fun l => .during .flowList start l.start (.noComma ']' l.token.label)
    let l ← peek
    match l.token with
    | .closeList =>
      skip
      return []
    | .key =>
      skip
      let k ← nodeUnless fuel .flow (.colon :: stops) l.stop
      let v ← member fuel .flow stops
      return .table l.start none [] [(k, v)] :: (← flowItems fuel start false)
    | _ =>
      let n ← node fuel .flow
      return n :: (← flowItems fuel start false)

/-- The entries of a table in brackets that begin at a mark; a node that is no key has no value. -/
def flowEntries : (fuel : Nat) → (start : Mark) → (first : Bool) → Reading (List (Node × Node))
  | 0, _, _ => throw .outOfFuel
  | fuel + 1, start, first => do
    let stops : List Token := [.comma, .closeTable]
    if (← skipIf .closeTable).isSome then return []
    if !first then
      expect .comma fun l => .during .flowTable start l.start (.noComma '\x7d' l.token.label)
    let l ← peek
    match l.token with
    | .closeTable =>
      skip
      return []
    | .key =>
      skip
      let k ← nodeUnless fuel .flow (.colon :: stops) l.stop
      let v ← member fuel .flow stops
      return (k, v) :: (← flowEntries fuel start false)
    | _ =>
      let n ← node fuel .flow
      let behind ← peek
      return (n, .empty behind.start none) :: (← flowEntries fuel start false)

end

/-! ## Documents -/

/-- Takes the instructions before a document, of which `told` is whether the version is known and `given` are the
handles so far; a version is told at most once, and is one of the first, and no handle is given twice. -/
def instructions : (fuel : Nat) → (told : Bool) → (given : Handles) → Reading Unit
  | 0, _, _ => throw .outOfFuel
  | fuel + 1, told, given => do
    let l ← peek
    match l.token with
    | .instruction (.version major) =>
      if told then throw (.at l.start .versionTwice)
      if major != 1 then throw (.at l.start .otherVersion)
      skip
      instructions fuel true given
    | .instruction (.handle name front) =>
      if (given.get? name).isSome then throw (.at l.start (.handleTwice name))
      skip
      instructions fuel told ((name, front) :: given)
    | .instruction .other =>
      skip
      instructions fuel told given
    | _ => modify fun f => { f with handles := given ++ commonHandles }

def ends : (fuel : Nat) → Reading Unit
  | 0 => throw .outOfFuel
  | fuel + 1 => do if (← skipIf .documentEnd).isSome then ends fuel else return

/-- Passes over the instructions and the mark before a document, and tells where they begin; there is none where
nothing is left. -/
def opening (fuel : Nat) : Reading (Option Mark) := do
  ends fuel
  let l ← peek
  if l.token == .stop then return none
  instructions fuel false []
  expect .documentStart fun l => .at l.start (.otherToken "'<document start>'" l.token.label)
  return some l.start

/-- A document that begins with a mark; none where nothing is left. -/
def marked (fuel : Nat) : Reading (Option Node) := do
  match ← opening fuel with
  | none => return none
  | some _ =>
    let l ← peek
    match l.token with
    | .instruction _ | .documentStart | .documentEnd | .stop => return some (.empty l.start none)
    | _ => return some (← node fuel .block)

/-- The first document; none where nothing is written. -/
def first (fuel : Nat) : Reading (Option Node) := do
  match (← peek).token with
  | .instruction _ | .documentStart | .stop => marked fuel
  | _ => return some (← node fuel .block)

def whole (fuel : Nat) : Reading (Option Node) := do
  match ← first fuel with
  | none => return none
  | some n =>
    match ← opening fuel with
    | none => return some n
    | some other => throw (.during .document n.start other .otherDocument)

end Reading

def tree (ls : List Lexeme) : Except Fault (Option Node) :=
  ((Reading.whole (3 * ls.length + 3)).run { lexemes := ls }).map (·.1)

end CodeReview.Value.Yaml
