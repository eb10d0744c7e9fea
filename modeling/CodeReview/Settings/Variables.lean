import CodeReview.Value.Basic
/-!
# Variables in settings

A text may refer to variables of the environment as `${name}`. It is cut, in one pass from the left, into
characters that stand for themselves and references; a name runs up to the next closing bracket and is not
empty. Each reference becomes the variable's value, which is not looked into again. In a table the values
are gone through, not the keys.
-/
namespace CodeReview.Settings

/-- The values of the variables that are set. -/
abbrev Environment := String → Option String

structure Unset where
  name : String
  deriving DecidableEq, Repr

def Unset.message (u : Unset) : String := "Environment variable not set: " ++ u.name

inductive Piece where
  | char (c : Char)
  | reference (name : String)
  deriving DecidableEq, Repr

/-- The name at the head of what follows `$` and a bracket, if the bracket is closed and not empty. -/
def name? (cs : List Char) : Option String :=
  let name := cs.takeWhile (· != '\x7d')
  if name.isEmpty || name.length == cs.length then none else some (String.ofList name)

def piecesFrom : (skip : Nat) → List Char → List Piece
  | _, [] => []
  | skip + 1, _ :: cs => piecesFrom skip cs
  | 0, '$' :: '\x7b' :: cs =>
    match name? cs with
    | some name => .reference name :: piecesFrom (name.length + 2) ('\x7b' :: cs)
    | none => .char '$' :: piecesFrom 0 ('\x7b' :: cs)
  | 0, c :: cs => .char c :: piecesFrom 0 cs

def pieces (s : String) : List Piece := piecesFrom 0 s.toList

def Piece.fill (env : Environment) : Piece → Except Unset String
  | .char c => .ok (String.singleton c)
  | .reference name =>
    match env name with
    | some value => .ok value
    | none => .error ⟨name⟩

def fillText (env : Environment) (s : String) : Except Unset String := do
  return String.join (← (pieces s).mapM (Piece.fill env))

mutual

def fill (env : Environment) : Value → Except Unset Value
  | .text s => (fillText env s).map .text
  | .list vs => (fillAll env vs).map .list
  | .map es => (fillEntries env es).map .map
  | .keyed es => (fillPairs env es).map .keyed
  | v => .ok v

def fillAll (env : Environment) : List Value → Except Unset (List Value)
  | [] => .ok []
  | v :: vs => do
    let v ← fill env v
    let vs ← fillAll env vs
    return v :: vs

def fillEntries (env : Environment) : List (String × Value) → Except Unset (List (String × Value))
  | [] => .ok []
  | (k, v) :: es => do
    let v ← fill env v
    let es ← fillEntries env es
    return (k, v) :: es

def fillPairs (env : Environment) : List (Value × Value) → Except Unset (List (Value × Value))
  | [] => .ok []
  | (k, v) :: es => do
    let v ← fill env v
    let es ← fillPairs env es
    return (k, v) :: es

end

end CodeReview.Settings
