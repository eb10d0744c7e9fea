import CodeReview.Text.Blank
import CodeReview.Text.Lines
import CodeReview.Value.Yaml.Binary
import CodeReview.Value.Yaml.Tag
import CodeReview.Value.Yaml.Timestamp
/-!
# Unquoted scalars as values

What an unquoted scalar stands for in YAML 1.1: a null, a truth value, an integer, a double, a date, or else the
text itself. A double has a point, and its exponent has a sign; a leading zero makes an integer octal. Parts
between colons are counted in sixties, as hours, minutes and seconds are. The form alone decides what a scalar is
(`isInteger`, `isFloat`); some forms of integers have no value.
-/
namespace CodeReview.Value.Yaml

def nulls : List String := ["", "~", "null", "Null", "NULL"]

def trues : List String := ["yes", "Yes", "YES", "true", "True", "TRUE", "on", "On", "ON"]

def falses : List String := ["no", "No", "NO", "false", "False", "FALSE", "off", "Off", "OFF"]

/-- The digits of a numeral without the marks that group them. -/
def digits (cs : List Char) : List Char := cs.filter (· != '_')

/-- Whether characters are a part of a numeral in sixties behind its first: a number below sixty, in one
digit or two. -/
def isSixtieth : List Char → Bool
  | [d] => d.isDigit
  | [t, d] => '0' ≤ t && t ≤ '5' && d.isDigit
  | _ => false

/-- Whether characters are digits, with marks that group them, and begin with a digit. -/
def isGrouped : List Char → Bool
  | [] => false
  | c :: cs => c.isDigit && cs.all fun c => c.isDigit || c == '_'

def isNumeral (base : Nat) (cs : List Char) : Bool :=
  cs.all fun c => (Number.digit? base c).isSome || c == '_'

/-- The parts of a numeral in sixties, of which there are at least two. -/
def sixties? (cs : List Char) : Option (List (List Char)) :=
  match Text.splitOn ':' cs with
  | first :: second :: rest =>
    if isGrouped first && (second :: rest).all isSixtieth then some (digits first :: second :: rest) else none
  | _ => none

/-! ## Integers -/

/-- Whether characters without a sign have the form of an integer. Only the first part of one in sixties may
have more than two digits, and it does not begin with zero. -/
def isMagnitude (cs : List Char) : Bool :=
  match cs with
  | [] => false
  | '0' :: 'b' :: ds => !ds.isEmpty && isNumeral 2 ds
  | '0' :: 'x' :: ds => !ds.isEmpty && isNumeral 16 ds
  | '0' :: ds => isNumeral 8 ds
  | ds => isGrouped ds || (sixties? ds).isSome

def isInteger (cs : List Char) : Bool := isMagnitude (Number.splitSign cs).2

/-- The letter that may stand behind a zero before the digits of a base. -/
def letterOf (base : Nat) : Option Char :=
  if base == 2 then some 'b' else if base == 8 then some 'o' else if base == 16 then some 'x' else none

def withoutLetter (base : Nat) (cs : List Char) : List Char :=
  match cs with
  | '0' :: c :: ds => if letterOf base == some c.toLower then ds else cs
  | _ => cs

/-- The number of a numeral, around which there may be blanks; there must be digits, and decimal ones may not be
too many. -/
def numeral (base : Nat) (cs : List Char) : Except NoValue Int :=
  let (negative, body) := Number.splitSign (Text.strip (String.ofList cs)).toList
  let ds := withoutLetter base body
  match Number.readNat base ds with
  | none => .error (.noInteger base (String.ofList cs))
  | some n =>
    if base == 10 && digitLimit < ds.length then .error (.tooManyDigits ds.length)
    else .ok (if negative then -(n : Int) else n)

def sixtiesNumber (parts : List (List Char)) : Except NoValue Int :=
  (parts.mapM (numeral 10)).map fun ns => ns.foldl (fun n part => n * 60 + part) 0

/-- The integer of a scalar, whatever its form is. The first sign counts for the whole of it. -/
def integer (cs : List Char) : Except NoValue Int :=
  let (negative, body) := Number.splitSign (digits cs)
  let n : Except NoValue Int := match body with
    | [] => .error .noFirst
    | '0' :: 'b' :: ds => numeral 2 ds
    | '0' :: 'x' :: ds => numeral 16 ds
    | '0' :: _ => numeral 8 body
    | _ => if body.contains ':' then sixtiesNumber (Text.splitOn ':' body) else numeral 10 body
  n.map fun n => if negative then -n else n

/-! ## Doubles -/

def isExponent : List Char → Bool
  | [] => true
  | e :: sign :: ds => (e == 'e' || e == 'E') && (sign == '+' || sign == '-') && !ds.isEmpty && ds.all (·.isDigit)
  | _ => false

/-- Whether characters without a sign are a double: digits, a point, digits, and an exponent. Digits may
be missing before the point, which then is the first character of the scalar, if one stands right behind
it. -/
def isDecimal (signed : Bool) (cs : List Char) : Bool :=
  let part (c : Char) : Bool := c.isDigit || c == '_'
  let whole := cs.takeWhile part
  match cs.dropWhile part with
  | '.' :: rest =>
    let fraction := rest.takeWhile part
    (if whole.isEmpty then !signed && isGrouped fraction else isGrouped whole) &&
      isExponent (rest.dropWhile part)
  | _ => false

/-- Whether characters without a sign are a numeral in sixties whose last part has a point. -/
def isSixtiesDecimal (cs : List Char) : Bool :=
  match cs.dropWhile (· != '.') with
  | _ :: fraction => (fraction.all fun c => c.isDigit || c == '_') && (sixties? (cs.takeWhile (· != '.'))).isSome
  | [] => false

def infinities : List String := [".inf", ".Inf", ".INF"]

def notNumbers : List String := [".nan", ".NaN", ".NAN"]

def isFloat (cs : List Char) : Bool :=
  let rest := (Number.splitSign cs).2
  infinities.contains (String.ofList rest) || notNumbers.contains (String.ofList cs) ||
    isDecimal (cs.length != rest.length) rest || isSixtiesDecimal rest

def decimal (cs : List Char) : Except NoValue Float :=
  let body := (Text.strip (String.ofList cs)).toList
  let (negative, name) := Number.splitSign body
  if name == "inf".toList || name == "infinity".toList then .ok ((if negative then -1.0 else 1.0) / 0.0)
  else if name == "nan".toList then .ok (0.0 / 0.0)
  else match Number.readFloat body with
    | some x => .ok x
    | none => .error (.noDouble (String.ofList cs))

/-- The number of the parts of a numeral in sixties, which are added up from the last to the first. -/
def sixtiesFloat (parts : List (List Char)) : Except NoValue Float :=
  (parts.mapM decimal).map fun xs =>
    (xs.reverse.foldl (fun (sum, (unit : Nat)) x => (sum + x * Float.ofNat unit, unit * 60)) (0.0, 1)).1

def float (cs : List Char) : Except NoValue Float :=
  let written := (digits cs).map Char.toLower
  let (negative, body) := Number.splitSign written
  let x : Except NoValue Float :=
    if written.isEmpty then .error .noFirst
    else if body == ".inf".toList then .ok (1.0 / 0.0)
    else if body == ".nan".toList then .ok (0.0 / 0.0)
    else if body.contains ':' then sixtiesFloat (Text.splitOn ':' body)
    else decimal body
  x.map fun x => if negative then -x else x

/-! ## Scalars -/

def ofPlain (s : String) : Except NoValue Value :=
  let cs := s.toList
  if nulls.contains s then .ok .null
  else if trues.contains s then .ok (.bool true)
  else if falses.contains s then .ok (.bool false)
  else if isInteger cs then (integer cs).map .int
  else if isFloat cs then (float cs).map .float
  else match (Stamp.read cs).filter (·.isFull) with
    | some stamp => stamp.value
    | none => .ok (.text s)

def truth (s : String) : Except NoValue Bool :=
  let s := s.toLower
  if trues.contains s then .ok true
  else if falses.contains s then .ok false
  else .error (.noTruth s)

def scalarSorts : List String := ["str", "null", "bool", "int", "float", "timestamp", "binary"]

def ofSort (start : Mark) (name s : String) : Except Fault Value :=
  let cs := s.toList
  match name with
  | "str" => .ok (.text s)
  | "null" => .ok .null
  | "bool" => ((truth s).map .bool).mapError .value
  | "int" => ((integer cs).map .int).mapError .value
  | "float" => ((float cs).map .float).mapError .value
  | "timestamp" => (((Stamp.read cs).map Stamp.value).getD (.error .noDate)).mapError .value
  | "binary" => ((bytes s).map fun bs => .special (ofBytes bs)).mapError (.at start)
  | _ => .error (.at start (.unknownTag (coreTags ++ name)))

end CodeReview.Value.Yaml
