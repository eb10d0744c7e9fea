import CodeReview.Value.Yaml.Block
import CodeReview.Value.Yaml.Quoted
import CodeReview.Value.Yaml.Token
/-!
# Cutting a document into tokens

Outside brackets indentation counts: a hyphen, or a key, further right than the block around it begins a new
block, and whatever stands further left ends blocks. Inside brackets only the marks count.

That a node is a key shows only at the colon behind it. So the place of a node that may be a key is kept
(`KeyStart`), and the colon puts the beginning of the key there. The colon has to stand on the same line, at most
`keyReach` characters behind the beginning; a node in the column of its table has to be a key.

What is wrong with a document takes the place of all tokens that cannot be told before it is met: those from the
first node on that might still be a key (`Scan.firstOpen`).
-/
namespace CodeReview.Value.Yaml

/-- A node that may turn out to be a key: how many tokens stand before it, whether it must be a key, and where
it begins. -/
structure KeyStart where
  number : Nat
  required : Bool
  start : Cursor

/-- How far behind the beginning of a key its colon may stand. -/
def keyReach : Nat := 1024

def KeyStart.isStale (k : KeyStart) (c : Cursor) : Bool :=
  k.start.line != c.line || k.start.index + keyReach < c.index

structure Scan where
  cursor : Cursor
  /-- The columns of the open blocks, the innermost first. -/
  blocks : List Nat := []
  /-- The number of open brackets. -/
  depth : Nat := 0
  /-- Whether a key may begin here. -/
  keyAllowed : Bool := true
  /-- The node that may be a key inside the innermost brackets. -/
  key : Option KeyStart := none
  /-- The nodes that may be keys around the brackets, the innermost first. -/
  outer : List (Option KeyStart) := []
  /-- The tokens so far, last first, and their number. -/
  out : List Lexeme := []
  count : Nat := 0

namespace Scan

def inFlow (s : Scan) : Bool := s.depth != 0

/-- The column of the innermost block; below zero where none is open. -/
def indent (s : Scan) : Int :=
  match s.blocks with
  | [] => -1
  | column :: _ => column

def mark (s : Scan) : Mark := s.cursor.mark

/-- Adds a token that takes the characters up to a cursor. -/
def put (s : Scan) (t : Token) (behind : Cursor) : Scan :=
  { s with out := ⟨t, s.mark, behind.mark⟩ :: s.out, count := s.count + 1, cursor := behind }

def emit (s : Scan) (t : Token) : Scan := s.put t s.cursor

def take (s : Scan) (n : Nat) (t : Token) : Scan := s.put t (s.cursor.skip n)

/-! ## Keys -/

def noColon (k : KeyStart) (c : Cursor) : Fault := .during .key k.start.mark c.mark .noColon

def expire (c : Cursor) (k : Option KeyStart) : Except Fault (Option KeyStart) :=
  match k.filter (·.isStale c) with
  | some k => if k.required then .error (noColon k c) else .ok none
  | none => .ok k

def expireAll (s : Scan) : Except Fault Scan := do
  let key ← expire s.cursor s.key
  let outer ← s.outer.mapM (expire s.cursor)
  return { s with key, outer }

/-- Drops the node that may be a key inside the innermost brackets. -/
def dropKey (s : Scan) : Except Fault Scan :=
  match s.key.filter (·.required) with
  | some k => .error (noColon k s.cursor)
  | none => .ok { s with key := none }

/-- How many tokens are settled: those before the first node that may still be a key. -/
def firstOpen (s : Scan) : Nat :=
  ((s.key :: s.outer).filterMap fun k => k.map (·.number)).foldl min s.count

def keepKey (s : Scan) : Except Fault Scan := do
  if s.keyAllowed then
    let s ← s.dropKey
    return { s with key := some ⟨s.count, !s.inFlow && s.indent == s.cursor.column, s.cursor⟩ }
  else return s

/-- Puts tokens that take no characters where a node begins. -/
def insert (s : Scan) (k : KeyStart) (new : List Token) : Scan :=
  let later := s.count - k.number
  let placed := new.map fun t => (⟨t, k.start.mark, k.start.mark⟩ : Lexeme)
  { s with
    out := s.out.take later ++ placed.reverse ++ s.out.drop later
    count := s.count + new.length }

/-! ## Blocks -/

/-- Ends the blocks that lie further right than a column, or all of them; inside brackets none. -/
def endBlocks (s : Scan) (column : Option Nat) : Scan :=
  let isRight (b : Nat) : Bool := (column.map fun c => decide (c < b)).getD true
  if s.inFlow then s
  else
    let s' := (s.blocks.takeWhile isRight).foldl (fun s _ => s.emit .endBlock) s
    { s' with blocks := s.blocks.dropWhile isRight }

/-- Begins a block here, if it lies further right than the one around it. -/
def beginBlock (s : Scan) (t : Token) : Scan :=
  let column := s.cursor.column
  if s.indent < column then { s.emit t with blocks := column :: s.blocks } else s

/-! ## Between tokens -/

/-- Passes over blanks, comments and line breaks; outside brackets a key may begin on a new line. -/
def toToken : (fuel : Nat) → Scan → Scan
  | 0, s => s
  | fuel + 1, s =>
    let c := s.cursor.skipWhile (· == ' ')
    let c := if c.peek == some '#' then c.toLineEnd else c
    match c.break? with
    | some _ => toToken fuel { s with cursor := c.next, keyAllowed := s.keyAllowed || !s.inFlow }
    | none => { s with cursor := c }

/-- Moves on to the next token; a byte order mark may stand at the very beginning. -/
def prepare (s : Scan) : Except Fault Scan := do
  let c := s.cursor
  let c := if c.index == 0 && c.peek == some byteOrderMark then c.next else c
  let s ← (toToken (c.left + 1) { s with cursor := c }).expireAll
  return s.endBlocks (some s.cursor.column)

/-! ## Marks -/

/-- Ends all blocks before a line that stands outside documents. -/
def leave (s : Scan) : Except Fault Scan := do
  let s ← (s.endBlocks none).dropKey
  return { s with keyAllowed := false }

def boundary (s : Scan) (t : Token) : Except Fault Scan := return (← s.leave).take 3 t

def openBracket (s : Scan) (t : Token) : Except Fault Scan := do
  let s ← s.keepKey
  return { s.take 1 t with depth := s.depth + 1, outer := s.key :: s.outer, key := none, keyAllowed := true }

def closeBracket (s : Scan) (t : Token) : Except Fault Scan := do
  let s ← s.dropKey
  return { s.take 1 t with
    depth := s.depth - 1
    key := s.outer.head?.getD none
    outer := s.outer.tail
    keyAllowed := false }

def comma (s : Scan) : Except Fault Scan := do
  return { (← s.dropKey).take 1 .comma with keyAllowed := true }

def dash (s : Scan) : Except Fault Scan := do
  if !s.inFlow && !s.keyAllowed then throw (.at s.mark .noItemHere)
  let s ← (if s.inFlow then s else s.beginBlock .beginList).dropKey
  return { s.take 1 .dash with keyAllowed := true }

/-- A question mark, which begins a key that may be any node. -/
def question (s : Scan) : Except Fault Scan := do
  if !s.inFlow && !s.keyAllowed then throw (.at s.mark .noKeyHere)
  let s ← (if s.inFlow then s else s.beginBlock .beginTable).dropKey
  return { s.take 1 .key with keyAllowed := !s.inFlow }

/-- A colon, which makes a key of the node before it, if that may be one. -/
def colon (s : Scan) : Except Fault Scan := do
  match s.key with
  | some k =>
    let begins := !s.inFlow && s.indent < k.start.column
    let s := s.insert k (if begins then [.beginTable, .key] else [.key])
    let blocks := if begins then k.start.column :: s.blocks else s.blocks
    return { s.take 1 .colon with key := none, blocks, keyAllowed := false }
  | none =>
    if !s.inFlow && !s.keyAllowed then throw (.at s.mark .noValueHere)
    let s := if s.inFlow then s else s.beginBlock .beginTable
    return { s.take 1 .colon with keyAllowed := !s.inFlow }

/-! ## Properties -/

/-- The characters that may stand behind a name, besides blanks and line breaks. -/
def behindName : List Char := "?:,]\x7d%@\x60".toList

def name (s : Scan) (work : Work) (t : String → Token) : Except Fault Scan := do
  let s ← s.keepKey
  let name := s.cursor.next.run isNameChar
  let c := s.cursor.skip (1 + name.length)
  if name.isEmpty || !(endsWord c.peek || (c.peek.map behindName.contains).getD false) then
    throw (.during work s.mark c.mark (.notThis "alphabetic or numeric character" c.peek))
  return { s.put (t (String.ofList name)) c with keyAllowed := false }

def tag (s : Scan) : Except Fault Scan := do
  let s ← s.keepKey
  let (tag, c) ← readTag s.cursor
  if !endsLine c.peek && c.peek != some ' ' then (TagUse.ofNode s.mark).refuse "' '" c
  return { s.put (.tagged tag) c with keyAllowed := false }

/-! ## Instructions -/

def refuse (start : Mark) (wanted : String) (c : Cursor) : Fault :=
  .during .instruction start c.mark (.notThis wanted c.peek)

def readNumber (start : Mark) (c : Cursor) : Except Fault (Nat × Cursor) :=
  let ds := c.run Char.isDigit
  match Number.readNat 10 ds with
  | some n => .ok (n, c.skip ds.length)
  | none => .error (refuse start "a digit" c)

def readVersion (start : Mark) (c : Cursor) : Except Fault (Instruction × Cursor) := do
  let (major, c) ← readNumber start (c.skipWhile (· == ' '))
  if c.peek != some '.' then throw (refuse start "a digit or '.'" c)
  let (_, c) ← readNumber start c.next
  if !(endsLine c.peek || c.peek == some ' ') then throw (refuse start "a digit or ' '" c)
  return (.version major, c)

def readHandleOf (start : Mark) (c : Cursor) : Except Fault (Instruction × Cursor) := do
  let use := TagUse.ofInstruction start
  let (handle, c) ← readHandle use (c.skipWhile (· == ' '))
  if c.peek != some ' ' then use.refuse "' '" c
  let (front, c) ← readTagName use (c.skipWhile (· == ' '))
  if !(endsLine c.peek || c.peek == some ' ') then use.refuse "' '" c
  return (.handle handle front, c)

def readInstruction (start : Mark) (name : String) (c : Cursor) : Except Fault (Instruction × Cursor) :=
  match name with
  | "YAML" => readVersion start c
  | "TAG" => readHandleOf start c
  | _ => .ok (.other, c.toLineEnd)

def instruction (s : Scan) : Except Fault Scan := do
  let s ← s.leave
  let c := s.cursor.next
  let name := c.run isNameChar
  let c := c.skip name.length
  if name.isEmpty || !(endsLine c.peek || c.peek == some ' ') then
    throw (refuse s.mark "alphabetic or numeric character" c)
  let (what, c) ← readInstruction s.mark (String.ofList name) c
  let c := c.skipWhile (· == ' ')
  let c := if c.peek == some '#' then c.toLineEnd else c
  if !endsLine c.peek then throw (refuse s.mark "a comment or a line break" c)
  return s.put (.instruction what) c.next

/-! ## Scalars -/

def quotedScalar (s : Scan) (quote : Char) : Except Fault Scan := do
  let s ← s.keepKey
  let (content, c) ← quoted quote s.cursor
  return { s.put (.scalar content false) c with keyAllowed := false }

def blockScalar (s : Scan) (folded : Bool) : Except Fault Scan := do
  let s ← s.dropKey
  let (content, c) ← block folded s.indent s.cursor
  return { s.put (.scalar content false) c with keyAllowed := true }

def plainScalar (s : Scan) : Except Fault Scan := do
  let s ← s.keepKey
  let p := Plain.at s.inFlow (s.indent + 1) s.cursor
  return { s.put (.scalar p.text true) p.cursor with keyAllowed := p.broken }

/-- The characters that begin no unquoted scalar, or only if a word goes on behind them. -/
def marks : List Char := "-?:,[]\x7b\x7d#&*!|>'\"%@\x60".toList

def startsPlain (inFlow : Bool) (c : Char) (next : Option Char) : Bool :=
  (!endsWord (some c) && !marks.contains c) ||
    (!endsWord next && (c == '-' || (!inFlow && (c == '?' || c == ':'))))

/-! ## The whole -/

def read (s : Scan) (c : Char) : Except Fault Scan :=
  let next := s.cursor.peekAt 1
  let first := s.cursor.column == 0
  if c == '%' && first then s.instruction
  else if first && s.cursor.atMark '-' then s.boundary .documentStart
  else if first && s.cursor.atMark '.' then s.boundary .documentEnd
  else if c == '[' then s.openBracket .openList
  else if c == '\x7b' then s.openBracket .openTable
  else if c == ']' then s.closeBracket .closeList
  else if c == '\x7d' then s.closeBracket .closeTable
  else if c == ',' then s.comma
  else if c == '-' && endsWord next then s.dash
  else if c == '?' && (s.inFlow || endsWord next) then s.question
  else if c == ':' && (s.inFlow || endsWord next) then s.colon
  else if c == '*' then s.name .sameAs .sameAs
  else if c == '&' then s.name .named .named
  else if c == '!' then s.tag
  else if c == '|' && !s.inFlow then s.blockScalar false
  else if c == '>' && !s.inFlow then s.blockScalar true
  else if c == '\'' || c == '"' then s.quotedScalar c
  else if startsPlain s.inFlow c next then s.plainScalar
  else .error (.form (.trouble { work := some .token, wrong := .noStart c, place := s.mark }))

def finish (s : Scan) : List Lexeme := (s.emit .stop).out.reverse

/-- The tokens up to a number, and what is wrong behind them. -/
def upTo (s : Scan) (number : Nat) (why : Fault) : List Lexeme :=
  (⟨.fault why, s.mark, s.mark⟩ :: s.out.drop (s.count - number)).reverse

/-- The next token; at the end of the document there is none. -/
def step (s : Scan) : Except Fault (Scan × Bool) := do
  let s ← s.prepare
  match s.cursor.peek with
  | none => return (← s.leave, true)
  | some c => return (← s.read c, false)

/-- Reads tokens up to the end of the document or to what is wrong with it; `settled` is how many were settled
before the last one was read. Each token takes at least one character, so the number of characters and one more is
enough fuel. -/
def run : (fuel : Nat) → (settled : Nat) → Scan → List Lexeme
  | 0, settled, s => s.upTo settled .outOfFuel
  | fuel + 1, settled, s =>
    match s.expireAll with
    | .error why => s.upTo settled why
    | .ok s =>
      match s.step with
      | .error why => s.upTo s.firstOpen why
      | .ok (s', false) => run fuel s.firstOpen s'
      | .ok (s', true) => s'.finish

end Scan

def isDocumentChar (c : Char) : Bool :=
  let n := c.toNat
  n == 9 || n == 10 || n == 13 || (0x20 ≤ n && n ≤ 0x7E) || n == 0x85 || (0xA0 ≤ n && n ≤ 0xFFFD) ||
    0x10000 ≤ n

def tokens (s : String) : List Lexeme :=
  let cs := s.toList
  let first : Cursor := ⟨cs, 0, 0, 0⟩
  let fit := cs.takeWhile isDocumentChar
  match cs[fit.length]? with
  | some c => [⟨.fault (.form (.unprintable c fit.length)), first.mark, first.mark⟩]
  | none => Scan.run (cs.length + 1) 0 { cursor := first }

end CodeReview.Value.Yaml
