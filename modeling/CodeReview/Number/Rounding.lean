/-!
# Rounding to the nearest

Quotients rounded to the nearest integer, a tie going to the even neighbour, and rationals rounded to
the nearest number of 53 significant bits, which is how a binary floating-point computation is said in
exact arithmetic: each operation is the exact one, followed by `nearest53`.
-/
namespace CodeReview.Number

def twoTo (n : Nat) : Nat := Nat.pow 2 n

def tenTo (n : Nat) : Nat := Nat.pow 10 n

/-- The integer nearest to `num / den`; of two equally near ones, the even one. -/
def roundDiv (num den : Nat) : Nat :=
  let q := num / den
  let r := num % den
  if 2 * r < den then q
  else if den < 2 * r then q + 1
  else q + q % 2

/-- The integer nearest to a rational; of two equally near ones, the even one. -/
def roundEven (q : Rat) : Int :=
  let n : Int := roundDiv q.num.natAbs q.den
  if q.num < 0 then -n else n

/-- The least exponent of a double: every finite one is a multiple of two to this power. -/
def minExponent : Int := -1074

/-- `num / den` rounded to 53 significant bits, as a mantissa and a power of two. Where the exponent
would fall below `minExponent`, fewer bits are kept. -/
def nearestParts (num den : Nat) : Nat × Int :=
  if num == 0 || den == 0 then (0, 0)
  else
    let estimate : Int := (Nat.log2 num : Int) - (Nat.log2 den : Int) - 52
    -- the quotient has 53 bits at this exponent or at the one below
    let wide := if 0 ≤ estimate then num / (den * twoTo estimate.toNat)
      else num * twoTo (-estimate).toNat / den
    let exponent := max minExponent (if wide < twoTo 52 then estimate - 1 else estimate)
    let mantissa := if 0 ≤ exponent then roundDiv num (den * twoTo exponent.toNat)
      else roundDiv (num * twoTo (-exponent).toNat) den
    (mantissa, exponent)

def twoPow (e : Int) : Rat :=
  if 0 ≤ e then (twoTo e.toNat : Rat) else mkRat 1 (twoTo (-e).toNat)

/-- The number of 53 significant bits that is nearest to a rational. -/
def nearest53 (q : Rat) : Rat :=
  let (m, e) := nearestParts q.num.natAbs q.den
  let r : Rat := (m : Rat) * twoPow e
  if q.num < 0 then -r else r

def ofRatio (num den : Nat) : Float :=
  let (m, e) := nearestParts num den
  (Float.ofNat m).scaleB e

end CodeReview.Number
