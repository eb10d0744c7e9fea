import CodeReview.Text.Utf16
/-!
# UTF-32

Four bytes make the number of a character, in one order or the other. A byte order mark at the beginning tells the
order. No character has a number among the halves of UTF-16, or above U+10FFFF.
-/
namespace CodeReview.Text.Utf32

open Utf16 (Order isLeading isTrailing)

def nameOf : Order → String
  | .little => "utf-32-le"
  | .big => "utf-32-be"

def number (o : Order) (a b c d : UInt8) : Nat :=
  match o with
  | .little => o.unit c d * 0x10000 + o.unit a b
  | .big => o.unit a b * 0x10000 + o.unit c d

/-- Reads numbers from a position on; `done` holds the characters read so far, the last one first. -/
def decodeFrom (o : Order) (pos : Nat) (done : List Char) : Bytes → Except String (List Char)
  | [] => .ok done.reverse
  | a :: b :: c :: d :: bs =>
    let n := number o a b c d
    if isLeading n || isTrailing n then
      .error (Utf8.invalidMessage (nameOf o) a pos 4 "code point in surrogate code point range(0xd800, 0xe000)")
    else if n < 0x110000 then decodeFrom o (pos + 4) (Char.ofNat n :: done) bs
    else .error (Utf8.invalidMessage (nameOf o) a pos 4 "code point not in range(0x110000)")
  | a :: bs => .error (Utf8.invalidMessage (nameOf o) a pos (1 + bs.length) "truncated data")

def decode (o : Order) (bs : Bytes) : Except String String := (decodeFrom o 0 [] bs).map String.ofList

def decodeMarked (bs : Bytes) : Except String String :=
  match bs with
  | 0xFF :: 0xFE :: 0 :: 0 :: rest => (decodeFrom .little 4 [] rest).map String.ofList
  | 0 :: 0 :: 0xFE :: 0xFF :: rest => (decodeFrom .big 4 [] rest).map String.ofList
  | bs =>
    match decode .little bs with
    | .error e => .error e
    | .ok text => if bs.isEmpty then .ok text else .error "UTF-32 stream does not start with BOM"

end CodeReview.Text.Utf32
