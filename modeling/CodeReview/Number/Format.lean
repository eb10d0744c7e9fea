import CodeReview.Number.Decimal
/-!
# Formats of doubles

A double in one of three styles with a precision: with a fixed number of places, with an exponent, or in
whichever of the two suits its size, without zeros at the end. All three round the exact value of the double
to nearest, a tie going to the even digit. A format may keep the point, and the zeros, of a number that
needs none.
-/
namespace CodeReview.Number

inductive Style where
  | places
  | exponent
  | general
  deriving DecidableEq, Repr

/-- How a double is written: the style, its precision, and whether point and zeros are kept. -/
structure Format where
  style : Style
  precision : Nat
  keep : Bool := false
  deriving DecidableEq, Repr

def zerosAfter (width : Nat) (ds : List Char) : List Char := ds ++ List.replicate (width - ds.length) '0'

def zerosBefore (width : Nat) (ds : List Char) : List Char := List.replicate (width - ds.length) '0' ++ ds

/-- Whole part and fraction, with a point between them if there is a fraction or the point is kept. -/
def pointed (keep : Bool) (whole fraction : List Char) : List Char :=
  if fraction.isEmpty && !keep then whole else whole ++ '.' :: fraction

/-- Digits without zeros at the end, unless these are kept. -/
def trimmed (keep : Bool) (ds : List Char) : List Char :=
  if keep then ds else (ds.reverse.dropWhile (· == '0')).reverse

/-- An exponent: a sign and at least two digits. -/
def exponentText (e : Int) : List Char :=
  'e' :: (if e < 0 then '-' else '+') :: zerosBefore 2 (Nat.toDigits 10 e.natAbs)

/-- The first `count` digits of a decimal that has that many or one more, and the place of the first. -/
def Decimal.leading (d : Decimal) (count : Nat) : List Char × Int :=
  let all := Nat.toDigits 10 d.digits
  (zerosAfter count (all.take count), d.exponent + (all.length : Int) - 1)

def Binary.inPlaces (keep : Bool) (places : Nat) (b : Binary) : List Char :=
  let (num, den) := b.fraction
  let ds := zerosBefore (places + 1) (Nat.toDigits 10 (roundDiv (num * tenTo places) den))
  pointed keep (ds.take (ds.length - places)) (ds.drop (ds.length - places))

def Binary.withExponent (keep : Bool) (places : Nat) (b : Binary) : List Char :=
  let (ds, top) := (b.significant (places + 1)).leading (places + 1)
  pointed keep (ds.take 1) (ds.drop 1) ++ exponentText top

/-- The magnitude of a double rounded to a number of digits, with an exponent if it is below `0.0001` or has
more digits before the point than that number. -/
def Binary.inGeneral (keep : Bool) (digits : Nat) (b : Binary) : List Char :=
  let count := if digits == 0 then 1 else digits
  let (ds, top) := (b.significant count).leading count
  if -4 ≤ top && top < count then
    if top < 0 then pointed keep ['0'] (trimmed keep (List.replicate (-top - 1).toNat '0' ++ ds))
    else pointed keep (ds.take (top.toNat + 1)) (trimmed keep (ds.drop (top.toNat + 1)))
  else pointed keep (ds.take 1) (trimmed keep (ds.drop 1)) ++ exponentText top

def Binary.write (f : Format) (b : Binary) : List Char :=
  match f.style with
  | .places => b.inPlaces f.keep f.precision
  | .exponent => b.withExponent f.keep f.precision
  | .general => b.inGeneral f.keep f.precision

/-- A double in a format: whether it has a sign, and its magnitude. -/
def Format.parts (f : Format) (x : Float) : Bool × String :=
  match Binary.ofFloat x with
  | some b => (b.negative, String.ofList (b.write f))
  | none => if x.isNaN then (false, "nan") else (x < 0.0, "inf")

end CodeReview.Number
