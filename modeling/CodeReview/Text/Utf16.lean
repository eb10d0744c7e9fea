import CodeReview.Text.Utf8
/-!
# UTF-16

Two bytes make a unit, in one order or the other, and a unit is a character or one half of it: a character above
U+FFFF is written as a leading and a trailing half. A byte order mark at the beginning tells the order.
-/
namespace CodeReview.Text.Utf16

inductive Order where
  | little
  | big
  deriving DecidableEq, Repr

def Order.name : Order → String
  | little => "utf-16-le"
  | big => "utf-16-be"

def Order.unit (o : Order) (a b : UInt8) : Nat :=
  match o with
  | little => b.toNat * 256 + a.toNat
  | big => a.toNat * 256 + b.toNat

/-- Whether a unit is a leading half. -/
def isLeading (u : Nat) : Bool := 0xD800 ≤ u && u < 0xDC00

/-- Whether a unit is a trailing half. -/
def isTrailing (u : Nat) : Bool := 0xDC00 ≤ u && u < 0xE000

def join (lead trail : Nat) : Char := Char.ofNat (0x10000 + (lead - 0xD800) * 0x400 + (trail - 0xDC00))

/-- Reads units from a position on; `done` holds the characters read so far, the last one first. -/
def decodeFrom (o : Order) (pos : Nat) (done : List Char) : Bytes → Except String (List Char)
  | [] => .ok done.reverse
  | [a] => .error (Utf8.invalidMessage o.name a pos 1 "truncated data")
  | a :: b :: bs =>
    let u := o.unit a b
    if isTrailing u then .error (Utf8.invalidMessage o.name a pos 2 "illegal encoding")
    else if isLeading u then
      match bs with
      | c :: d :: rest =>
        if isTrailing (o.unit c d) then decodeFrom o (pos + 4) (join u (o.unit c d) :: done) rest
        else .error (Utf8.invalidMessage o.name a pos 2 "illegal UTF-16 surrogate")
      | rest => .error (Utf8.invalidMessage o.name a pos (2 + rest.length) "unexpected end of data")
    else decodeFrom o (pos + 2) (Char.ofNat u :: done) bs

def decode (o : Order) (bs : Bytes) : Except String String := (decodeFrom o 0 [] bs).map String.ofList

/-- The text of bytes that tell their order, which those of any unit must. -/
def decodeMarked (bs : Bytes) : Except String String :=
  match bs with
  | 0xFF :: 0xFE :: rest => (decodeFrom .little 2 [] rest).map String.ofList
  | 0xFE :: 0xFF :: rest => (decodeFrom .big 2 [] rest).map String.ofList
  | bs =>
    match decode .little bs with
    | .error e => .error e
    | .ok text => if bs.isEmpty then .ok text else .error "UTF-16 stream does not start with BOM"

end CodeReview.Text.Utf16
