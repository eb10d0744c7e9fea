import CodeReview.Number.Decimal
/-!
# Quantities

A number as it was written: an integer of any size, or a double. Integers are added and compared exactly; an
integer that meets a double in a sum is rounded to one first, which fails for an integer that is too large
(`toFloat?`), and a comparison of the two is exact.
-/
namespace CodeReview.Number

/-- A number, as it was written. -/
inductive Quantity where
  | whole (n : Int)
  | decimal (x : Float)
  deriving Inhabited

/-- The numerators, over a denominator of one, from which on rounding leaves the range of doubles. -/
def floatLimit : Nat := twoTo 1024 - twoTo 970

/-- Whether a quotient of integers rounds to a finite double. -/
def fitsFloat (num den : Int) : Bool := num.natAbs < den.natAbs * floatLimit

def toFloat? (n : Int) : Option Float := if fitsFloat n 1 then some (Float.ofInt n) else none

/-- A double as a rational; `none` for an infinity and for what is no number. -/
def toRat? (x : Float) : Option Rat :=
  (Binary.ofFloat x).map fun b =>
    let q := mkRat b.fraction.1 b.fraction.2
    if b.negative then -q else q

namespace Quantity

def toFloat? : Quantity → Option Float
  | whole n => Number.toFloat? n
  | decimal x => some x

/-- The double nearest to a number, infinite where the number is too large. -/
def toFloat : Quantity → Float
  | whole n => Float.ofInt n
  | decimal x => x

def isZero : Quantity → Bool
  | whole n => n == 0
  | decimal x => x == 0.0

/-- Whether a number is above zero or is none. -/
def isPositive : Quantity → Bool
  | whole n => 0 < n
  | decimal x => !(x ≤ 0.0)

/-- The sum of two numbers, unless an integer in it is too large for a double. -/
def add : Quantity → Quantity → Option Quantity
  | whole a, whole b => some (whole (a + b))
  | a, b => do
    let x ← a.toFloat?
    let y ← b.toFloat?
    return decimal (x + y)

/-- Whether the first of two numbers is at most the second; what is no number is comparable to nothing. -/
def atMost : Quantity → Quantity → Bool
  | whole a, whole b => a ≤ b
  | decimal x, decimal y => x ≤ y
  | whole a, decimal y =>
    match toRat? y with
    | some q => (a : Rat) ≤ q
    | none => 0.0 < y
  | decimal x, whole b =>
    match toRat? x with
    | some q => q ≤ (b : Rat)
    | none => x < 0.0

end Quantity
end CodeReview.Number
