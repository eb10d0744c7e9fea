/-!
# Reading numerals

Decimal numerals of ASCII digits, as data formats write them. A numeral is read whole or not at all.
-/
namespace CodeReview.Number

def digit? (base : Nat) (c : Char) : Option Nat :=
  let v? : Option Nat :=
    if c.isDigit then some (c.toNat - '0'.toNat)
    else if 'a' ≤ c && c ≤ 'f' then some (c.toNat - 'a'.toNat + 10)
    else if 'A' ≤ c && c ≤ 'F' then some (c.toNat - 'A'.toNat + 10)
    else none
  v?.filter (· < base)

def readDigits (base : Nat) : (acc : Nat) → List Char → Option Nat
  | acc, [] => some acc
  | acc, c :: cs => (digit? base c).bind fun d => readDigits base (acc * base + d) cs

def readNat (base : Nat) (cs : List Char) : Option Nat :=
  if cs.isEmpty then none else readDigits base 0 cs

def splitSign : List Char → Bool × List Char
  | '-' :: cs => (true, cs)
  | '+' :: cs => (false, cs)
  | cs => (false, cs)

def readInt (cs : List Char) : Option Int :=
  let (negative, ds) := splitSign cs
  (readNat 10 ds).map fun n => if negative then -(n : Int) else n

/-- The double nearest to a numeral: digits, and the power of ten by which they count. What is too large is
infinite and what is too small is zero, without any power being computed. -/
def scientific (digits : Nat) (power : Int) : Float :=
  let top := power + (Nat.toDigits 10 digits).length
  if digits == 0 || top < -400 then 0.0
  else if 400 < top then 1.0 / 0.0
  else Float.ofScientific digits (decide (power < 0)) power.natAbs

/-- A decimal number with an optional fraction and an optional exponent, as the nearest double. -/
def readFloat (cs : List Char) : Option Float := do
  let (negative, rest) := splitSign cs
  let isExponent (c : Char) : Bool := c == 'e' || c == 'E'
  let front := rest.takeWhile fun c => !isExponent c
  let exponent ← match rest.dropWhile fun c => !isExponent c with
    | [] => some 0
    | _ :: ds => readInt ds
  let whole := front.takeWhile (· != '.')
  let fraction := (front.dropWhile (· != '.')).drop 1
  let digits ← readNat 10 (whole ++ fraction)
  let power : Int := exponent - fraction.length
  let x := scientific digits power
  return if negative then -x else x

end CodeReview.Number
