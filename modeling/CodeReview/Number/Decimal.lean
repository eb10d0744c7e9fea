import CodeReview.Number.Rounding
/-!
# Doubles in decimal

A finite double is an integer times a power of two (`Binary.ofFloat`), and everything here is exact
arithmetic on that pair. `shortest` gives the fewest digits that read back as the same double, and of
those the nearest to it; `significant` rounds to a number of digits; `roundPlaces` rounds to decimal
places. `Layout` says how digits and an exponent are written.
-/
namespace CodeReview.Number

/-- A finite double: `mantissa * 2 ^ exponent`, with a sign. -/
structure Binary where
  negative : Bool
  mantissa : Nat
  exponent : Int
  deriving DecidableEq, Repr

/-- The parts of a double, or `none` for an infinity and for what is no number. -/
def Binary.ofFloat (x : Float) : Option Binary :=
  let bits := x.toBits.toNat
  let negative := bits / twoTo 63 == 1
  let field : Nat := bits / twoTo 52 % 2048
  let fraction : Nat := bits % twoTo 52
  if field == 2047 then none
  else if field == 0 then some ⟨negative, fraction, minExponent⟩
  else some ⟨negative, twoTo 52 + fraction, (field : Int) - 1075⟩

/-- The magnitude as a fraction, scaled by four so that the midpoints to the neighbouring doubles are
integers over the same denominator. -/
def Binary.fraction (b : Binary) : Nat × Nat :=
  if 0 ≤ b.exponent then (4 * b.mantissa * twoTo b.exponent.toNat, 4)
  else (4 * b.mantissa, 4 * twoTo (-b.exponent).toNat)

/-- The midpoints to the two neighbouring doubles, over the denominator of `fraction`. -/
def Binary.midpoints (b : Binary) : Nat × Nat :=
  let unit := if 0 ≤ b.exponent then twoTo b.exponent.toNat else 1
  let below := if b.mantissa == twoTo 52 && minExponent < b.exponent then 1 else 2
  ((4 * b.mantissa - below) * unit, (4 * b.mantissa + 2) * unit)

/-- The number of digits before the decimal point of `num / den > 0`: the least `k` with
`num / den < 10 ^ k`, negative or zero for a quotient below one tenth or below one. -/
def magnitude (num den : Nat) : Int :=
  if den ≤ num then (Nat.toDigits 10 (num / den)).length
  else
    let j := (Nat.toDigits 10 (den / num)).length
    if den ≤ num * tenTo (j - 1) then 2 - (j : Int) else 1 - (j : Int)

def scaleDown (num den : Nat) (power : Int) : Nat × Nat :=
  if 0 ≤ power then (num, den * tenTo power.toNat) else (num * tenTo (-power).toNat, den)

/-- A decimal: `digits * 10 ^ exponent`. -/
structure Decimal where
  digits : Nat
  exponent : Int
  deriving DecidableEq, Repr

/-- The decimal of `count` digits that reads back as the double, if there is one; of two, the nearer. -/
def Binary.tryDigits (b : Binary) (k : Int) (count : Nat) : Option Decimal :=
  let (num, den) := b.fraction
  let (low, high) := b.midpoints
  let power := k - count
  let (n, d) := scaleDown num den power
  let inside (t : Nat) : Bool :=
    let (l, dl) := scaleDown low den power
    let (h, dh) := scaleDown high den power
    if b.mantissa % 2 == 0 then l ≤ t * dl && t * dh ≤ h else l < t * dl && t * dh < h
  let down := n / d
  let r := n % d
  let near := roundDiv n d
  let far := if near == down then down + 1 else down
  if inside near then some ⟨near, power⟩
  else if r != 0 && inside far then some ⟨far, power⟩
  else none

/-- The first count of digits from `count` on that reads back, with seventeen as the last resort. -/
def Binary.search (b : Binary) (k : Int) : (fuel count : Nat) → Decimal
  | 0, count => (b.tryDigits k count).getD ⟨0, 0⟩
  | fuel + 1, count =>
    match b.tryDigits k count with
    | some d => d
    | none => search b k fuel (count + 1)

/-- The fewest digits that read back as the double: seventeen always suffice. -/
def Binary.shortest (b : Binary) : Decimal :=
  if b.mantissa == 0 then ⟨0, 0⟩
  else b.search (magnitude b.fraction.1 b.fraction.2) 16 1

/-- The double rounded to a number of significant digits, a tie going to the even digit. -/
def Binary.significant (b : Binary) (count : Nat) : Decimal :=
  if b.mantissa == 0 then ⟨0, 0⟩
  else
    let (num, den) := b.fraction
    let power := magnitude num den - count
    let (n, d) := scaleDown num den power
    ⟨roundDiv n d, power⟩

/-- The double nearest to a double rounded to decimal places, a tie going to the even digit. -/
def roundPlaces (places : Nat) (x : Float) : Float :=
  match Binary.ofFloat x with
  | none => x
  | some b =>
    let (num, den) := b.fraction
    let r := ofRatio (roundDiv (num * tenTo places) den) (tenTo places)
    if b.negative then -r else r

/-- How a decimal is written: as a plain numeral while the exponent of its first digit lies from
`plainFrom` up to but not including `plainBelow`, else with an exponent of at least two digits;
`point` keeps `.0` after a whole number that is written plainly. -/
structure Layout where
  plainFrom : Int
  plainBelow : Int
  point : Bool
  deriving DecidableEq, Repr

/-- The text of a double among values: plain from `0.0001` to below ten to the sixteenth. -/
def Layout.value : Layout := ⟨-4, 16, true⟩

/-- The text of a double rounded to six digits: plain from `0.0001` to below a million. -/
def Layout.six : Layout := ⟨-4, 6, false⟩

/-- Takes trailing zeros off a list of digits, keeping the first digit. -/
def dropZeros (ds : List Char) : List Char :=
  match (ds.reverse.dropWhile (· == '0')).reverse with
  | [] => ['0']
  | kept => kept

def Layout.write (l : Layout) (d : Decimal) : String :=
  if d.digits == 0 then (if l.point then "0.0" else "0")
  else
    let all := Nat.toDigits 10 d.digits
    let top := d.exponent + (all.length : Int) - 1
    let ds := dropZeros all
    let text : List Char :=
      if l.plainFrom ≤ top && top < l.plainBelow then
        if top < 0 then
          '0' :: '.' :: (List.replicate (-top - 1).toNat '0' ++ ds)
        else
          let whole := top.toNat + 1
          let front := ds.take whole ++ List.replicate (whole - ds.length) '0'
          match ds.drop whole with
          | [] => if l.point then front ++ ['.', '0'] else front
          | rest => front ++ '.' :: rest
      else
        let exponent := Nat.toDigits 10 top.natAbs
        let padded := if exponent.length < 2 then '0' :: exponent else exponent
        let head := match ds with
          | [] => ['0']
          | [a] => [a]
          | a :: rest => a :: '.' :: rest
        head ++ 'e' :: (if top < 0 then '-' else '+') :: padded
    String.ofList text

def notFinite (x : Float) : String :=
  if x.isNaN then "nan" else if x < 0 then "-inf" else "inf"

def floatText (x : Float) : String :=
  match Binary.ofFloat x with
  | none => notFinite x
  | some b => (if b.negative then "-" else "") ++ Layout.value.write b.shortest

def sixDigits (x : Float) : String :=
  match Binary.ofFloat x with
  | none => notFinite x
  | some b => (if b.negative then "-" else "") ++ Layout.six.write (b.significant 6)

end CodeReview.Number
