import CodeReview.Number.Read
import CodeReview.Value.Basic
/-!
# Reading JSON

Reading goes in two passes, each a machine that takes one item at a time, so neither needs a bound on
its steps: `scan` cuts the characters into tokens, and `build` puts the tokens together over a stack of
the lists and tables that are still open. A key that stands twice keeps its place and takes the later
value. Whether a number is an integer or a double is decided by how it is written.
-/
namespace CodeReview.Value.Json

/-! ## Tokens -/

/-- A token: one of the marks `[ ] { } , :`, a text, or a bare word (a number or a constant). -/
inductive Token where
  | mark (c : Char)
  | text (s : String)
  | word (cs : List Char)

/-- Where the scanner stands. The characters read so far of a text or word are kept last first;
`high` is a leading surrogate that waits for its trailing one. -/
inductive Mode where
  | between
  | word (done : List Char)
  | text (done : List Char) (high : Option Nat)
  | escape (done : List Char) (high : Option Nat)
  | unit (left code : Nat) (done : List Char) (high : Option Nat)

def putUnit (code : Nat) (done : List Char) (high : Option Nat) : Mode :=
  match high with
  | some h =>
    if 0xDC00 ≤ code && code < 0xE000 then
      .text (Char.ofNat (0x10000 + (h - 0xD800) * 0x400 + (code - 0xDC00)) :: done) none
    else .text (Char.ofNat code :: '\uFFFD' :: done) none
  | none =>
    if 0xD800 ≤ code && code < 0xDC00 then .text done (some code)
    else .text (Char.ofNat code :: done) none

/-- A leading surrogate that nothing followed leaves U+FFFD behind. -/
def settle (done : List Char) : Option Nat → List Char
  | some _ => '\uFFFD' :: done
  | none => done

def isSpace (c : Char) : Bool := c == ' ' || c == '\n' || c == '\r' || c == '\t'

def isMark (c : Char) : Bool := "[]\x7b\x7d,:".contains c

/-- Reads a character between tokens, after the tokens `out`. -/
def scanBetween (out : List Token) (c : Char) : Option (Mode × List Token) :=
  if isSpace c then some (.between, out)
  else if isMark c then some (.between, .mark c :: out)
  else if c == '"' then some (.text [] none, out)
  else some (.word [c], out)

def scanEscape (done : List Char) (high : Option Nat) (c : Char) : Option Mode :=
  let plain (d : Char) : Option Mode := some (.text (d :: settle done high) none)
  match c with
  | '"' => plain '"'
  | '\\' => plain '\\'
  | '/' => plain '/'
  | 'b' => plain (Char.ofNat 8)
  | 'f' => plain (Char.ofNat 12)
  | 'n' => plain '\n'
  | 'r' => plain '\r'
  | 't' => plain '\t'
  | 'u' => some (.unit 4 0 done high)
  | _ => none

/-- Reads one character; the tokens found so far are kept last first. -/
def scanStep : Mode → List Token → Char → Option (Mode × List Token)
  | .between, out, c => scanBetween out c
  | .word done, out, c =>
    if isSpace c || isMark c || c == '"' then scanBetween (.word done.reverse :: out) c
    else some (.word (c :: done), out)
  | .text done high, out, c =>
    if c == '"' then some (.between, .text (String.ofList (settle done high).reverse) :: out)
    else if c == '\\' then some (.escape done high, out)
    else some (.text (c :: settle done high) none, out)
  | .escape done high, out, c => (scanEscape done high c).map (·, out)
  | .unit left code done high, out, c =>
    (Number.digit? 16 c).map fun d =>
      let code := code * 16 + d
      (if left ≤ 1 then putUnit code done high else .unit (left - 1) code done high, out)

def scanFrom : Mode → List Token → List Char → Option (List Token)
  | .between, out, [] => some out.reverse
  | .word done, out, [] => some (.word done.reverse :: out).reverse
  | _, _, [] => none
  | mode, out, c :: cs =>
    match scanStep mode out c with
    | some (mode', out') => scanFrom mode' out' cs
    | none => none

def scan (s : String) : Option (List Token) := scanFrom .between [] s.toList

/-! ## Values -/

/-- A list or a table that is still open; items are kept last first. -/
inductive Frame where
  | list (done : List Value)
  | map (done : Entries Value) (key : Option String)

inductive Expect where
  | value
  | valueOrClose
  | key
  | keyOrClose
  | colon
  | commaOrClose
  deriving DecidableEq

/-- The state of the builder: the open frames, innermost first, what may come next, and the value once
it is complete. -/
structure Build where
  stack : List Frame
  expect : Expect
  whole : Option Value

/-- A bare word as a value. Doubles that have no numeral are words as well, as they are written. -/
def ofWord (cs : List Char) : Option Value :=
  if cs == "null".toList then some .null
  else if cs == "true".toList then some (.bool true)
  else if cs == "false".toList then some (.bool false)
  else if cs == "NaN".toList then some (.float (0.0 / 0.0))
  else if cs == "Infinity".toList then some (.float (1.0 / 0.0))
  else if cs == "-Infinity".toList then some (.float (-1.0 / 0.0))
  else if cs.any fun c => c == '.' || c == 'e' || c == 'E' then (Number.readFloat cs).map .float
  else (Number.readInt cs).map .int

def Build.put (b : Build) (v : Value) : Option Build :=
  match b.stack with
  | [] => some { b with whole := some v, expect := .commaOrClose }
  | .list done :: rest => some { b with stack := .list (v :: done) :: rest, expect := .commaOrClose }
  | .map done (some k) :: rest =>
    some { b with stack := .map (done.set k v) none :: rest, expect := .commaOrClose }
  | .map _ none :: _ => none

def Build.wantsValue (b : Build) : Bool :=
  (b.expect == .value || b.expect == .valueOrClose) && b.whole.isNone

def Build.step (b : Build) : Token → Option Build
  | .mark '[' => if b.wantsValue then some { b with stack := .list [] :: b.stack, expect := .valueOrClose } else none
  | .mark '\x7b' => if b.wantsValue then some { b with stack := .map [] none :: b.stack, expect := .keyOrClose } else none
  | .mark ']' =>
    match b.stack with
    | .list done :: rest =>
      if b.expect == .commaOrClose || b.expect == .valueOrClose then
        { b with stack := rest }.put (.list done.reverse)
      else none
    | _ => none
  | .mark '\x7d' =>
    match b.stack with
    | .map done none :: rest =>
      if b.expect == .commaOrClose || b.expect == .keyOrClose then
        { b with stack := rest }.put (.map done)
      else none
    | _ => none
  | .mark ',' =>
    match b.expect, b.stack with
    | .commaOrClose, .list _ :: _ => some { b with expect := .value }
    | .commaOrClose, .map _ _ :: _ => some { b with expect := .key }
    | _, _ => none
  | .mark _ => if b.expect == .colon then some { b with expect := .value } else none
  | .text s =>
    match b.expect, b.stack with
    | .key, .map done _ :: rest | .keyOrClose, .map done _ :: rest =>
      some { b with stack := .map done (some s) :: rest, expect := .colon }
    | _, _ => if b.wantsValue then b.put (.text s) else none
  | .word cs => if b.wantsValue then (ofWord cs).bind b.put else none

def Build.run : Build → List Token → Option Value
  | b, [] => if b.stack.isEmpty then b.whole else none
  | b, t :: ts =>
    match b.step t with
    | some b' => Build.run b' ts
    | none => none

def parse (s : String) : Option Value := do
  let tokens ← scan s
  Build.run ⟨[], .value, none⟩ tokens

end CodeReview.Value.Json
