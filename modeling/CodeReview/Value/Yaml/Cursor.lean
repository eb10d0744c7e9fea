import CodeReview.Number.Read
/-!
# Places in a YAML document

A cursor is a place in a document: the characters ahead of it, and the number of characters, of line breaks and
of columns before it. Besides the line feed, U+0085, U+2028 and U+2029 break lines. A byte order mark takes no
column. A mark is what is left of a cursor when it is only to be told where something is.
-/
namespace CodeReview.Value.Yaml

def isBreak (c : Char) : Bool := c == '\n' || c == '\u0085' || c == '\u2028' || c == '\u2029'

/-- The text of a line break inside a scalar: only the last two stay what they are. -/
def breakText (c : Char) : String := if c == '\u0085' then "\n" else String.singleton c

def isBlank (c : Char) : Bool := c == ' ' || c == '\t'

/-- Whether a line ends before a character or at the end of the document. -/
def endsLine : Option Char → Bool
  | none => true
  | some c => isBreak c

def endsWord : Option Char → Bool
  | none => true
  | some c => isBlank c || isBreak c

def isNameChar (c : Char) : Bool := c.isAlphanum || c == '-' || c == '_'

def byteOrderMark : Char := '\uFEFF'

/-- A line and a column of a document, counted from zero. -/
structure Mark where
  line : Nat
  column : Nat
  deriving DecidableEq, Repr, Inhabited

structure Cursor where
  ahead : List Char
  index : Nat := 0
  line : Nat := 0
  column : Nat := 0
  deriving DecidableEq, Repr

namespace Cursor

def mark (c : Cursor) : Mark := ⟨c.line, c.column⟩

def peek (c : Cursor) : Option Char := c.ahead.head?

def peekAt (c : Cursor) (n : Nat) : Option Char := c.ahead[n]?

def next (c : Cursor) : Cursor :=
  match c.ahead with
  | [] => c
  | a :: rest =>
    if isBreak a then ⟨rest, c.index + 1, c.line + 1, 0⟩
    else ⟨rest, c.index + 1, c.line, if a == byteOrderMark then c.column else c.column + 1⟩

def skip (c : Cursor) : (n : Nat) → Cursor
  | 0 => c
  | n + 1 => c.next.skip n

def run (c : Cursor) (p : Char → Bool) : List Char := c.ahead.takeWhile p

def skipWhile (c : Cursor) (p : Char → Bool) : Cursor := c.skip (c.run p).length

def toLineEnd (c : Cursor) : Cursor := c.skipWhile fun a => !isBreak a

def break? (c : Cursor) : Option Char := c.peek.filter isBreak

/-- The number of some hexadecimal digits at a cursor, or what stands there first that is none. -/
def code (c : Cursor) (length : Nat) : Except (Option Char) Nat :=
  match ((List.range length).map c.peekAt).find? fun a => (a.bind (Number.digit? 16)).isNone with
  | some found => .error found
  | none => .ok ((Number.readNat 16 (c.ahead.take length)).getD 0)

/-- Whether a line begins here that is a mark between documents: three hyphens or three points. -/
def atMark (c : Cursor) (mark : Char) : Bool := c.ahead.take 3 == [mark, mark, mark] && endsWord (c.peekAt 3)

def atBoundary (c : Cursor) : Bool := c.atMark '-' || c.atMark '.'

/-- The number of characters ahead, which bounds how often a reader can move on. -/
def left (c : Cursor) : Nat := c.ahead.length

end Cursor
end CodeReview.Value.Yaml
