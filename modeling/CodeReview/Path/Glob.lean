/-!
# Wildcard patterns

In a pattern `*` stands for any run of characters, `?` for any one character, and `[...]` for one of the
characters and ranges listed, or with `!` in front for any other; every other character stands for
itself, and so does a `[` that is never closed. A slash and a line feed are characters like any other.
A range whose ends are the wrong way round is empty.
-/
namespace CodeReview.Path

/-- One element of a set: a character is a range of one. -/
structure Range where
  low : Char
  high : Char
  deriving DecidableEq, Repr

inductive Piece where
  | star
  | any
  | char (c : Char)
  | set (negated : Bool) (ranges : List Range)
  deriving DecidableEq, Repr

namespace Glob

/-- The characters and ranges of a set, empty ranges included. -/
def ranges : List Char → List Range
  | a :: '-' :: b :: cs => ⟨a, b⟩ :: ranges cs
  | a :: cs => ⟨a, a⟩ :: ranges cs
  | [] => []

/-- A set from the characters between its brackets. A mark of negation comes first, if need be after
empty ranges; behind such ranges a hyphen that follows it stands for itself. -/
def set : List Char → Piece
  | '!' :: cs => .set true ((ranges cs).filter fun r => r.low ≤ r.high)
  | cs =>
    match (ranges cs).filter fun r => r.low ≤ r.high with
    | ⟨'!', '!'⟩ :: rest => .set true rest
    | ⟨'!', high⟩ :: rest => .set true (⟨'-', '-'⟩ :: ⟨high, high⟩ :: rest)
    | rest => .set false rest

/-- How many characters stand between a `[` and the bracket that closes it, if one does. A bracket that
comes first, or first after `!`, does not close. -/
def setLength (cs : List Char) : Option Nat :=
  let opening := match cs with
    | '!' :: ']' :: _ => 2
    | '!' :: _ => 1
    | ']' :: _ => 1
    | _ => 0
  let rest := cs.drop opening
  let inner := (rest.takeWhile (· != ']')).length
  if inner < rest.length then some (opening + inner) else none

def piecesFrom : (skip : Nat) → List Char → List Piece
  | _, [] => []
  | skip + 1, _ :: cs => piecesFrom skip cs
  | 0, c :: cs =>
    if c == '*' then .star :: piecesFrom 0 cs
    else if c == '?' then .any :: piecesFrom 0 cs
    else if c == '[' then
      match setLength cs with
      | some n => set (cs.take n) :: piecesFrom (n + 1) cs
      | none => .char '[' :: piecesFrom 0 cs
    else .char c :: piecesFrom 0 cs

def pieces (pattern : String) : List Piece := piecesFrom 0 pattern.toList

/-- Whether a piece other than a star stands for a character. -/
def admits : Piece → Char → Bool
  | .star, _ | .any, _ => true
  | .char d, c => c == d
  | .set negated rs, c => (rs.any fun r => r.low ≤ c && c ≤ r.high) != negated

def accepts : List Piece → List Char → Bool
  | [], cs => cs.isEmpty
  | .star :: ps, [] => accepts ps []
  | .star :: ps, c :: cs => accepts ps (c :: cs) || accepts (.star :: ps) cs
  | _ :: _, [] => false
  | p :: ps, c :: cs => admits p c && accepts ps cs
termination_by ps cs => (ps.length, cs.length)

def test (pattern text : String) : Bool := accepts (pieces pattern) text.toList

end Glob
end CodeReview.Path
