/-!
# UTF-8

Reading bytes as UTF-8, in two ways that share one step. `Utf8.next` reads the head of a byte list: a
character, or a *maximal invalid part*, which is the longest run of bytes that starts a well-formed
sequence without completing it (one byte when not even that). Reading tolerantly puts one U+FFFD for
each such part; reading strictly stops at the first and says where it is and why it is invalid.

The lead byte of a sequence decides how many bytes follow and in which range the first of these lies:
that range leaves out overlong forms, the surrogates and everything above U+10FFFF.
-/
namespace CodeReview.Text

abbrev Bytes := List UInt8

namespace Utf8

def encode (s : String) : Bytes := s.toUTF8.data.toList

inductive Reason where
  | start
  | continuation
  | truncated
  deriving DecidableEq, Repr

inductive Head where
  | char (c : Char) (len : Nat)
  | invalid (len : Nat) (why : Reason)
  deriving DecidableEq

/-- What a lead byte announces: the number of continuation bytes, the bounds of the first of them, and
the bits the lead byte contributes. -/
def lead (b : UInt8) : Option (Nat × Nat × Nat × Nat) :=
  let n := b.toNat
  if n < 0xC2 then none
  else if n < 0xE0 then some (1, 0x80, 0xBF, n - 0xC0)
  else if n == 0xE0 then some (2, 0xA0, 0xBF, 0)
  else if n == 0xED then some (2, 0x80, 0x9F, 0xD)
  else if n < 0xF0 then some (2, 0x80, 0xBF, n - 0xE0)
  else if n == 0xF0 then some (3, 0x90, 0xBF, 0)
  else if n < 0xF4 then some (3, 0x80, 0xBF, n - 0xF0)
  else if n == 0xF4 then some (3, 0x80, 0x8F, 4)
  else none

/-- Reads the continuation bytes that are still missing, the next of them between `lo` and `hi`;
`len` bytes have been read and stand for `acc`. -/
def continue_ : (missing lo hi acc len : Nat) → Bytes → Head
  | 0, _, _, acc, len, _ => .char (Char.ofNat acc) len
  | _ + 1, _, _, _, len, [] => .invalid len .truncated
  | m + 1, lo, hi, acc, len, b :: bs =>
    if lo ≤ b.toNat && b.toNat ≤ hi then
      continue_ m 0x80 0xBF (acc * 64 + (b.toNat - 0x80)) (len + 1) bs
    else .invalid len .continuation

/-- The character or the maximal invalid part at the head of a non-empty byte list. -/
def next (b : UInt8) (bs : Bytes) : Head :=
  if b.toNat < 0x80 then .char (Char.ofNat b.toNat) 1
  else match lead b with
    | none => .invalid 1 .start
    | some (missing, lo, hi, acc) => continue_ missing lo hi acc 1 bs

/-- Tolerant reading with a count of bytes still to pass over, which belong to the part just read. -/
def decodeLossyFrom : (skip : Nat) → Bytes → List Char
  | _, [] => []
  | skip + 1, _ :: bs => decodeLossyFrom skip bs
  | 0, b :: bs =>
    match next b bs with
    | .char c len => c :: decodeLossyFrom (len - 1) bs
    | .invalid len _ => '\uFFFD' :: decodeLossyFrom (len - 1) bs

/-- The characters of a byte string, one U+FFFD for each maximal invalid part. -/
def decodeLossy (bs : Bytes) : List Char := decodeLossyFrom 0 bs

structure Invalid where
  first : UInt8
  start : Nat
  len : Nat
  why : Reason
  deriving DecidableEq

/-- Strict reading from a position, passing over `skip` bytes first; `done` holds the characters read
so far, the last one first. -/
def decodeFrom : (skip pos : Nat) → (done : List Char) → Bytes → Except Invalid (List Char)
  | _, _, done, [] => .ok done.reverse
  | skip + 1, pos, done, _ :: bs => decodeFrom skip (pos + 1) done bs
  | 0, pos, done, b :: bs =>
    match next b bs with
    | .char c len => decodeFrom (len - 1) (pos + 1) (c :: done) bs
    | .invalid len why => .error ⟨b, pos, len, why⟩

def decode (bs : Bytes) : Except Invalid String := (decodeFrom 0 0 [] bs).map String.ofList

def Reason.message : Reason → String
  | .start => "invalid start byte"
  | .continuation => "invalid continuation byte"
  | .truncated => "unexpected end of data"

def byteText (b : UInt8) : String :=
  let d := Nat.toDigits 16 b.toNat
  "0x" ++ String.ofList (if d.length < 2 then '0' :: d else d)

/-- The report of bytes that an encoding of a name has no character for: one byte is shown, several are given by
their positions. -/
def invalidMessage (encoding : String) (first : UInt8) (start len : Nat) (why : String) : String :=
  "'" ++ encoding ++ "' codec can't decode " ++
    (if len ≤ 1 then "byte " ++ byteText first ++ " in position " ++ toString start
    else "bytes in position " ++ toString start ++ "-" ++ toString (start + len - 1)) ++ ": " ++ why

def Invalid.message (e : Invalid) : String := invalidMessage "utf-8" e.first e.start e.len e.why.message

end Utf8
end CodeReview.Text
