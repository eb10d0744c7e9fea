import CodeReview.Value.Yaml.Fault
import CodeReview.Value.Yaml.Plain
/-!
# Block scalars

A block scalar is made of whole lines that are indented further than what they belong to. Behind its mark may
stand how far it is indented and what becomes of the line breaks at its end: as a rule one of them is kept. A
literal scalar keeps its line breaks; a folded one folds those between lines that do not begin with a blank.
-/
namespace CodeReview.Value.Yaml

inductive Chomp where
  | clip
  | strip
  | keep
  deriving DecidableEq, Repr

structure Header where
  chomp : Chomp := .clip
  increment : Option Nat := none

def readChomp (c : Cursor) : Option Chomp × Cursor :=
  match c.peek with
  | some '+' => (some .keep, c.next)
  | some '-' => (some .strip, c.next)
  | _ => (none, c)

/-- Reads how far the scalar is indented, if it is said; not by zero. -/
def readIncrement (start : Mark) (c : Cursor) : Except Fault (Option Nat × Cursor) :=
  match c.peek.bind (Number.digit? 10) with
  | some 0 => .error (.during .blockScalar start c.mark .zeroIndent)
  | some n => .ok (some n, c.next)
  | none => .ok (none, c)

/-- Reads what stands behind the mark, in either order, up to the end of the line. -/
def readHeader (start : Mark) (c : Cursor) : Except Fault (Header × Cursor) := do
  let refuse (wanted : String) (c : Cursor) : Fault := .during .blockScalar start c.mark (.notThis wanted c.peek)
  let (first, c) := readChomp c
  let (increment, c) ← readIncrement start c
  let (chomp, c) := if first.isNone && increment.isSome then readChomp c else (first, c)
  if !endsLine c.peek && c.peek != some ' ' then throw (refuse "chomping or indentation indicators" c)
  let c := c.skipWhile (· == ' ')
  let c := if c.peek == some '#' then c.toLineEnd else c
  if !endsLine c.peek then throw (refuse "a comment or a line break" c)
  return (⟨chomp.getD .clip, increment⟩, c.next)

/-- Passes over empty lines, and gives their breaks and the column of the blank that is furthest right. -/
def measureIndent : (fuel : Nat) → (breaks : String) → (most : Nat) → Cursor → String × Nat × Cursor
  | 0, breaks, most, c => (breaks, most, c)
  | fuel + 1, breaks, most, c =>
    match c.break? with
    | some b => measureIndent fuel (breaks ++ breakText b) most c.next
    | none =>
      if c.peek == some ' ' then measureIndent fuel breaks (max most c.next.column) c.next
      else (breaks, most, c)

def toColumn (column : Nat) (c : Cursor) : Cursor :=
  c.skip (min (column - c.column) (c.run (· == ' ')).length)

def blockBreaks (column : Nat) : (fuel : Nat) → (breaks : String) → Cursor → String × Cursor
  | 0, breaks, c => (breaks, c)
  | fuel + 1, breaks, c =>
    let c := toColumn column c
    match c.break? with
    | some b => blockBreaks column fuel (breaks ++ breakText b) c.next
    | none => (breaks, c)

def onBlockLine (column : Nat) (c : Cursor) : Bool := c.column == column && c.peek.isSome

def betweenLines (folded : Bool) (above below : Option Char) (ended : Option Char) (breaks : String) : String :=
  let inked (a : Option Char) : Bool := !(a.map isBlank).getD false
  if folded && ended.map breakText == some "\n" && inked above && inked below then
    if breaks.isEmpty then " " else ""
  else (ended.map breakText).getD ""

/-- Reads lines; gives their text, the last line break, and the breaks behind it. -/
def blockLines (folded : Bool) (column : Nat) : (fuel : Nat) → (done breaks : String) → Cursor →
    String × Option Char × String × Cursor
  | 0, done, breaks, c => (done, none, breaks, c)
  | fuel + 1, done, breaks, c =>
    let line := c.run fun a => !isBreak a
    let done := done ++ breaks ++ String.ofList line
    let stop := c.skip line.length
    let ended := stop.break?
    let (breaks, next) := blockBreaks column (stop.left + 1) "" stop.next
    if onBlockLine column next then
      blockLines folded column fuel (done ++ betweenLines folded c.peek next.peek ended breaks) breaks next
    else (done, ended, breaks, next)

/-- The block scalar at a cursor, which stands at its mark; `indent` is the column of what it belongs to. -/
def block (folded : Bool) (indent : Int) (c : Cursor) : Except Fault (String × Cursor) := do
  let (header, c) ← readHeader c.mark c.next
  let least := max (indent + 1) 1 |>.toNat
  let (breaks, column, c) := match header.increment with
    | none =>
      let (breaks, most, c) := measureIndent (c.left + 1) "" 0 c
      (breaks, max least most, c)
    | some n =>
      let column := least + n - 1
      let (breaks, c) := blockBreaks column (c.left + 1) "" c
      (breaks, column, c)
  let (body, ended, breaks, c) :=
    if onBlockLine column c then blockLines folded column (c.left + 1) "" breaks c else ("", none, breaks, c)
  return (match header.chomp with
    | .strip => body
    | .clip => body ++ (ended.map breakText).getD ""
    | .keep => body ++ (ended.map breakText).getD "" ++ breaks, c)

end CodeReview.Value.Yaml
