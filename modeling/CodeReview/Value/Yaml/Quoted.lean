import CodeReview.Value.Yaml.Fault
import CodeReview.Value.Yaml.Plain
/-!
# Quoted scalars

Between apostrophes everything stands for itself, and two apostrophes for one. Between quotation marks a
backslash begins an escape: a letter, a code, or a line break that is to be left out. In both, blanks around line
breaks are left out and the breaks are folded as in unquoted scalars.
-/
namespace CodeReview.Value.Yaml

def escaped? (c : Char) : Option Char :=
  match c with
  | '0' => some (Char.ofNat 0)
  | 'a' => some (Char.ofNat 7)
  | 'b' => some (Char.ofNat 8)
  | 't' | '\t' => some '\t'
  | 'n' => some '\n'
  | 'v' => some (Char.ofNat 11)
  | 'f' => some (Char.ofNat 12)
  | 'r' => some '\r'
  | 'e' => some (Char.ofNat 27)
  | ' ' => some ' '
  | '"' => some '"'
  | '\\' => some '\\'
  | '/' => some '/'
  | 'N' => some '\u0085'
  | '_' => some '\u00a0'
  | 'L' => some '\u2028'
  | 'P' => some '\u2029'
  | _ => none

def codeLength? (c : Char) : Option Nat :=
  if c == 'x' then some 2 else if c == 'u' then some 4 else if c == 'U' then some 8 else none

/-- The second half of a character that is given as two codes, where its escape stands here. -/
def trailing? (c : Cursor) : Option Nat :=
  if c.ahead.take 2 == ['\\', 'u'] then
    match (c.skip 2).code 4 with
    | .ok n => if 0xDC00 ≤ n && n < 0xE000 then some n else none
    | .error _ => none
  else none

/-- The character of a code, and what is ahead behind it: a code that is the first half of a character takes the
escape of the second half with it. -/
def charOf (code : Nat) (c : Cursor) : Except NoValue (Char × Cursor) :=
  if 0x80000000 ≤ code then .error .hugeCode
  else if 0x110000 ≤ code then .error .noCharacter
  else if 0xD800 ≤ code && code < 0xE000 then
    match if code < 0xDC00 then trailing? c else none with
    | some low => .ok (Char.ofNat (0x10000 + (code - 0xD800) * 0x400 + (low - 0xDC00)), c.skip 6)
    | none => .ok ('\uFFFD', c)
  else .ok (Char.ofNat code, c)

/-- Passes over the line breaks at a cursor with the blanks before and behind them, and gives their text. -/
def quotedBreaks (start : Mark) : (fuel : Nat) → (breaks : String) → Cursor → Except Fault (String × Cursor)
  | 0, breaks, c => .ok (breaks, c)
  | fuel + 1, breaks, c =>
    if c.atBoundary then .error (.during .quotes start c.mark .boundaryInQuotes)
    else
      let c := c.skipWhile isBlank
      match c.break? with
      | some b => quotedBreaks start fuel (breaks ++ breakText b) c.next
      | none => .ok (breaks, c)

def quotedGap (start : Mark) (c : Cursor) : Except Fault (String × Cursor) :=
  let blanks := c.run isBlank
  let c := c.skip blanks.length
  match c.peek with
  | none => .error (.during .quotes start c.mark .endInQuotes)
  | some b =>
    if isBreak b then (quotedBreaks start (c.left + 1) "" c.next).map fun (more, c) => (foldBreaks b more, c)
    else .ok (String.ofList blanks, c)

def escape (start : Mark) (c : Cursor) : Except Fault (String × Cursor) := do
  let refuse (place : Cursor) (wrong : Wrong) : Fault := .during .escape start place.mark wrong
  let a := c.peek
  match a.bind escaped?, a.bind codeLength? with
  | some e, _ => return (String.singleton e, c.next)
  | none, some n =>
    let c := c.next
    let code ← (c.code n).mapError fun found =>
      refuse c (.notThis ("escape sequence of " ++ toString n ++ " hexadecimal numbers") found)
    let (e, c) ← (charOf code (c.skip n)).mapError .value
    return (String.singleton e, c)
  | none, none =>
    if c.break?.isSome then quotedBreaks start c.left "" c.next else throw (refuse c (.noEscape a))

def quotedFrom (quote : Char) (start : Mark) :
    (fuel : Nat) → (done : String) → Cursor → Except Fault (String × Cursor)
  | 0, _, _ => .error .outOfFuel
  | fuel + 1, done, c => do
    if c.peek == some quote then
      if quote == '\'' && c.peekAt 1 == some '\'' then quotedFrom quote start fuel (done.push quote) (c.skip 2)
      else return (done, c.next)
    else if c.peek == some '\\' && quote == '"' then
      let (part, c) ← escape start c.next
      quotedFrom quote start fuel (done ++ part) c
    else match c.peek.filter fun a => !endsWord (some a) with
      | some a => quotedFrom quote start fuel (done.push a) c.next
      | none =>
        let (part, c) ← quotedGap start c
        quotedFrom quote start fuel (done ++ part) c

def quoted (quote : Char) (c : Cursor) : Except Fault (String × Cursor) :=
  quotedFrom quote c.mark (c.left + 1) "" c.next

end CodeReview.Value.Yaml
