import CodeReview.Log.Place
import CodeReview.Number.Read
/-!
# Message templates

A template is a text with places for values. A place is a percent sign, a key in parentheses or none, flags, a
width, a precision, each of them or none, and a sign that says how the value is shown (`Place`); a star in the
stead of a width or a precision takes it from the next value. Two percent signs stand for one.

Values fill the places in order, and there must be as many of them as places; where the only value is a table
that is not empty, places may name its keys instead, and it need not be used. Without any values a text is no
template and stands for itself.
-/
namespace CodeReview.Log

/-- The values that are still to be used, and the table in which keys are looked up. -/
structure Supply where
  waiting : List Value
  table : Option Value := none

namespace Supply

def ofValues (vs : List Value) : Supply :=
  match vs with
  | [.map (e :: es)] => ⟨vs, some (.map (e :: es))⟩
  | _ => ⟨vs, none⟩

def take (s : Supply) : Except TemplateError (Value × Supply) :=
  match s.waiting with
  | [] => .error .tooFew
  | v :: vs => .ok (v, { s with waiting := vs })

def select (s : Supply) (key : String) : Except TemplateError Supply :=
  match s.table with
  | none => .error .noTable
  | some t =>
    match t.get? key with
    | none => .error (.noKey key)
    | some v => .ok { s with waiting := [v] }

def takeExtent (s : Supply) (limit : Nat) (beyond : TemplateError) : Except TemplateError (Int × Supply) := do
  let (v, s) ← s.take
  let n : Int ← match v with
    | .int n => pure n
    | .bool b => pure (if b then 1 else 0)
    | _ => throw .starSort
  if -(limit : Int) ≤ n && n < limit then return (n, s) else throw beyond

end Supply

/-! ## Reading a place -/

def widthLimit : Nat := Number.twoTo 63

def precisionLimit : Nat := Number.twoTo 31

/-- Reads a key up to its closing parenthesis; `depth` more are open inside it. -/
def readKey : (depth : Nat) → (done : List Char) → List Char → Option (String × List Char)
  | _, _, [] => none
  | 0, done, ')' :: cs => some (String.ofList done.reverse, cs)
  | depth + 1, done, ')' :: cs => readKey depth (')' :: done) cs
  | depth, done, '(' :: cs => readKey (depth + 1) ('(' :: done) cs
  | depth, done, c :: cs => readKey depth (c :: done) cs

def readSelection (s : Supply) : List Char → Except TemplateError (Supply × List Char)
  | '(' :: cs =>
    if s.table.isNone then .error .noTable
    else match readKey 0 [] cs with
      | none => .error .openKey
      | some (key, cs) => do return (← s.select key, cs)
  | cs => .ok (s, cs)

def readFlags : Place → List Char → Place × List Char
  | p, '-' :: cs => readFlags { p with left := true } cs
  | p, '+' :: cs => readFlags { p with plus := true } cs
  | p, ' ' :: cs => readFlags { p with blank := true } cs
  | p, '#' :: cs => readFlags { p with alternate := true } cs
  | p, '0' :: cs => readFlags { p with zero := true } cs
  | p, cs => (p, cs)

def numberOf (ds : List Char) : Nat := (Number.readNat 10 ds).getD 0

/-- Reads a width; a negative one is that of a value at the left end. -/
def readWidth (p : Place) (s : Supply) : List Char → Except TemplateError (Place × Supply × List Char)
  | '*' :: cs => do
    let (n, s) ← s.takeExtent widthLimit .starWidth
    return ({ p with width := n.natAbs, left := p.left || n < 0 }, s, cs)
  | cs =>
    let n := numberOf (cs.takeWhile (·.isDigit))
    if widthLimit ≤ n then .error .hugeWidth
    else .ok ({ p with width := n }, s, cs.dropWhile (·.isDigit))

/-- Reads a precision; a negative one counts as zero. -/
def readPrecision (p : Place) (s : Supply) : List Char → Except TemplateError (Place × Supply × List Char)
  | '.' :: '*' :: cs => do
    let (n, s) ← s.takeExtent precisionLimit .starPrecision
    return ({ p with precision := some n.toNat }, s, cs)
  | '.' :: cs =>
    let n := numberOf (cs.takeWhile (·.isDigit))
    if precisionLimit ≤ n then .error .hugePrecision
    else .ok ({ p with precision := some n }, s, cs.dropWhile (·.isDigit))
  | cs => .ok (p, s, cs)

def skipSize : List Char → List Char
  | 'h' :: cs | 'l' :: cs | 'L' :: cs => cs
  | cs => cs

/-- Fills the place whose percent sign has been read; the template has `length` characters. -/
def fillPlace (length : Nat) (s : Supply) (cs : List Char) : Except TemplateError (String × Supply × List Char) := do
  let (s, cs) ← readSelection s cs
  let (p, cs) := readFlags {} cs
  let (p, s, cs) ← readWidth p s cs
  let (p, s, cs) ← readPrecision p s cs
  match skipSize cs with
  | [] => throw .cutShort
  | sign :: cs =>
    let (v, s) ← s.take
    return (← p.write sign (length - cs.length - 1) v, s, cs)

/-! ## The whole -/

/-- Fills the places of what is left of a template of `length` characters; `out` holds what has been written.
A step reads at least one character, so the length is enough fuel. -/
def fillFrom (length : Nat) : (fuel : Nat) → (out : String) → Supply → List Char → Except TemplateError String
  | _, out, s, [] => if s.table.isNone && !s.waiting.isEmpty then .error .tooMany else .ok out
  | 0, _, _, _ => .error .cutShort
  | fuel + 1, out, s, '%' :: '%' :: cs => fillFrom length fuel (out ++ "%") s cs
  | fuel + 1, out, s, '%' :: cs => do
    let (shown, s, cs) ← fillPlace length s cs
    fillFrom length fuel (out ++ shown) s cs
  | fuel + 1, out, s, c :: cs => fillFrom length fuel (out.push c) s cs

def fill (template : String) (values : List Value) : Except TemplateError String :=
  if values.isEmpty then .ok template
  else fillFrom template.length template.length "" (.ofValues values) template.toList

end CodeReview.Log
