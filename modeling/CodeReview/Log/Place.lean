import CodeReview.Number.Format
import CodeReview.Number.Quantity
import CodeReview.Value.Literal
/-!
# Places in a message template

A place says how a value is shown: as a text, exact or not (`s`, `r`, `a`), as an integer in base ten, eight or
sixteen (`d`, `i`, `u`, `o`, `x`, `X`), as a double in one of the formats (`e`, `f`, `g` and their capitals), or
as one character (`c`). It may ask for a width, to which it is filled up with blanks or zeros, and for a
precision: the most characters of a text, the least digits of an integer, the precision of a double.
-/
namespace CodeReview.Log

/-- What an error is about: the form of a template, the sort of a value, the size of a number, a key that is
not there, or the room that a text would take. -/
inductive ErrorSort where
  | form
  | sort
  | size
  | key
  | room
  deriving DecidableEq, Repr

inductive TemplateError where
  | tooFew
  | tooMany
  /-- A place names a key, and there is no table. -/
  | noTable
  | openKey
  | noKey (key : String)
  | cutShort
  | unknownPlace (sign : Char) (index : Nat)
  | hugeWidth
  | hugePrecision
  /-- A width or a precision is taken from a value that is no integer. -/
  | starSort
  | starWidth
  | starPrecision
  | notAnInteger (sign : Char) (value : Value)
  | notANumber (sign : Char) (value : Value)
  | notADouble (value : Value)
  | hugeDouble
  | infinite
  | undefined
  | digits
  | notACharacter
  | noCharacter
  /-- The text would not fit into memory. -/
  | noRoom

/-- A sign as a message shows it: only where it is an ASCII character. -/
def shownSign (c : Char) : Char := if 31 ≤ c.toNat && c.toNat ≤ 126 then c else '?'

namespace TemplateError

def sort : TemplateError → ErrorSort
  | tooFew | tooMany | noTable | starSort | notAnInteger _ _ | notANumber _ _ | notADouble _ | notACharacter => .sort
  | noKey _ => .key
  | starWidth | starPrecision | hugeDouble | infinite | digits | noCharacter => .size
  | noRoom => .room
  | _ => .form

def message : TemplateError → String
  | tooFew => "not enough arguments for format string"
  | tooMany => "not all arguments converted during string formatting"
  | noTable => "format requires a mapping"
  | openKey => "incomplete format key"
  | noKey key => key
  | cutShort => "incomplete format"
  | unknownPlace sign index =>
    "unsupported format character '" ++ String.singleton (shownSign sign) ++ "' (0x" ++
      String.ofList (Nat.toDigits 16 sign.toNat) ++ ") at index " ++ toString index
  | hugeWidth => "width too big"
  | hugePrecision => "precision too big"
  | starSort => "* wants int"
  | starWidth => "Python int too large to convert to C ssize_t"
  | starPrecision => "Python int too large to convert to C int"
  | notAnInteger sign value =>
    "%" ++ String.singleton sign ++ " format: an integer is required, not " ++ value.sortName
  | notANumber sign value =>
    "%" ++ String.singleton sign ++ " format: a real number is required, not " ++ value.sortName
  | notADouble value => "must be real number, not " ++ value.sortName
  | hugeDouble => "int too large to convert to float"
  | infinite => "cannot convert float infinity to integer"
  | undefined => "cannot convert float NaN to integer"
  | digits => "precision too large"
  | notACharacter => "%c requires int or char"
  | noCharacter => "%c arg not in range(0x110000)"
  | noRoom => ""

end TemplateError

structure Place where
  /-- To the left end of its width. -/
  left : Bool := false
  /-- With a sign also where it is not negative. -/
  plus : Bool := false
  /-- With a blank where a sign would stand. -/
  blank : Bool := false
  /-- With the mark of its base, or with the point of a double. -/
  alternate : Bool := false
  /-- Filled up with zeros. -/
  zero : Bool := false
  width : Nat := 0
  precision : Option Nat := none
  deriving DecidableEq, Repr

/-- The parts of a shown value that padding keeps apart; `numeric` tells whether it may have a sign. -/
structure Shown where
  numeric : Bool := false
  sign : String := ""
  mark : String := ""
  body : String

namespace Place

def run (n : Nat) (c : Char) : String := String.ofList (List.replicate n c)

def signOf (p : Place) (s : Shown) : String :=
  if !s.numeric || s.sign != "" then s.sign
  else if p.plus then "+"
  else if p.blank then " "
  else ""

def pad (p : Place) (s : Shown) : String :=
  let sign := p.signOf s
  let gap := p.width - (sign.length + s.mark.length + s.body.length)
  if p.left then sign ++ s.mark ++ s.body ++ run gap ' '
  else if s.numeric && p.zero then sign ++ s.mark ++ run gap '0' ++ s.body
  else run gap ' ' ++ sign ++ s.mark ++ s.body

/-- A text, cut to the precision. -/
def text (p : Place) (s : String) : Shown :=
  { body := match p.precision with
      | none => s
      | some n => String.ofList (s.toList.take n) }

/-- The integer a value is shown as: a double loses its fraction. -/
def wholePart (sign : Char) (v : Value) : Except TemplateError Int :=
  match v with
  | .int n => .ok n
  | .bool b => .ok (if b then 1 else 0)
  | .float x =>
    match Number.Binary.ofFloat x with
    | some b =>
      let n : Int := (b.fraction.1 / b.fraction.2 : Nat)
      .ok (if b.negative then -n else n)
    | none => .error (if x.isNaN then .undefined else .infinite)
  | _ => .error (.notANumber sign v)

def exactInt (sign : Char) (v : Value) : Except TemplateError Int :=
  match v with
  | .int n => .ok n
  | .bool b => .ok (if b then 1 else 0)
  | _ => .error (.notAnInteger sign v)

def maxDigits : Nat := 2147483644

/-- An integer in a base, with at least as many digits as the precision says. -/
def integer (p : Place) (base : Nat) (mark : String) (n : Int) : Except TemplateError Shown :=
  let least := p.precision.getD 0
  if maxDigits < least then .error .digits
  else .ok {
    numeric := true
    sign := if n < 0 then "-" else ""
    mark := if p.alternate then mark else ""
    body := String.ofList (Number.zerosBefore least (Nat.toDigits base n.natAbs)) }

def double (v : Value) : Except TemplateError Float :=
  match v with
  | .float x => .ok x
  | .bool b => .ok (if b then 1.0 else 0.0)
  | .int n =>
    match Number.toFloat? n with
    | some x => .ok x
    | none => .error .hugeDouble
  | _ => .error (.notADouble v)

/-- A double in a style; six is the precision where none is given. -/
def real (p : Place) (style : Number.Style) (x : Float) : Shown :=
  let (negative, body) := (⟨style, p.precision.getD 6, p.alternate⟩ : Number.Format).parts x
  { numeric := true, sign := if negative then "-" else "", body }

def character (v : Value) : Except TemplateError Shown := do
  match v with
  | .text s =>
    if s.length == 1 then return { body := s } else throw .notACharacter
  | .int _ | .bool _ =>
    let n ← exactInt 'c' v
    if 0 ≤ n && n < 0x110000 then return { body := String.singleton (Char.ofNat n.toNat) }
    else throw .noCharacter
  | _ => throw .notACharacter

def capitals (s : Shown) : Shown := { s with mark := s.mark.toUpper, body := s.body.toUpper }

def show_ (p : Place) (sign : Char) (index : Nat) (v : Value) : Except TemplateError Shown :=
  match sign with
  | 's' => .ok (p.text v.display)
  | 'r' => .ok (p.text v.literal)
  | 'a' => .ok (p.text (Text.asciiOnly v.literal))
  | 'd' | 'i' | 'u' => do p.integer 10 "" (← wholePart sign v)
  | 'o' => do p.integer 8 "0o" (← exactInt sign v)
  | 'x' => do p.integer 16 "0x" (← exactInt sign v)
  | 'X' => do return capitals (← p.integer 16 "0x" (← exactInt sign v))
  | 'e' => do return p.real .exponent (← double v)
  | 'E' => do return capitals (p.real .exponent (← double v))
  | 'f' => do return p.real .places (← double v)
  | 'F' => do return capitals (p.real .places (← double v))
  | 'g' => do return p.real .general (← double v)
  | 'G' => do return capitals (p.real .general (← double v))
  | 'c' => character v
  | _ => .error (.unknownPlace sign index)

/-- The width from which on a text is taken not to fit into memory. -/
def roomLimit : Nat := Number.twoTo 34

def write (p : Place) (sign : Char) (index : Nat) (v : Value) : Except TemplateError String := do
  let shown ← p.show_ sign index v
  if roomLimit ≤ p.width then throw .noRoom
  return p.pad shown

end Place
end CodeReview.Log
