import CodeReview.Text.Quoted
import CodeReview.Text.Utf8
import CodeReview.Value.Basic
import CodeReview.Value.Yaml.FormError
/-!
# Bytes in YAML

Bytes are written as characters that stand for six bits each, four of them for three bytes. What stands for
nothing is passed over, line breaks above all. Equals signs fill up the last four, and end the bytes. Two or three
characters that are not filled up, or one alone, are no bytes.
-/
namespace CodeReview.Value.Yaml

def sixBits? (c : Char) : Option Nat :=
  if c.isUpper then some (c.toNat - 'A'.toNat)
  else if c.isLower then some (c.toNat - 'a'.toNat + 26)
  else if c.isDigit then some (c.toNat - '0'.toNat + 52)
  else if c == '+' then some 62
  else if c == '/' then some 63
  else none

/-- The report of characters that end too early: behind `count` bytes, `place` of four characters are read. -/
def cutShort (place count : Nat) : String :=
  if place == 1 then
    "Invalid base64-encoded string: number of data characters (" ++ toString (count / 3 * 4 + 1) ++
      ") cannot be 1 more than a multiple of 4"
  else "Incorrect padding"

/-- Reads bytes: `place` characters of the present four are read and leave the bits `carry`, behind which there
have been `pads` equals signs. Bytes are kept last first. -/
def bytesFrom : (place carry pads : Nat) → (done : Text.Bytes) → List Char → Except Wrong Text.Bytes
  | place, _, _, done, [] =>
    if place == 0 then .ok done.reverse else .error (.noBytes (cutShort place done.length))
  | place, carry, pads, done, c :: cs =>
    if c == '=' then
      if place < 2 then bytesFrom place carry pads done cs
      else if 4 ≤ place + pads + 1 then .ok done.reverse
      else bytesFrom place carry (pads + 1) done cs
    else match sixBits? c with
      | none => bytesFrom place carry pads done cs
      | some bits =>
        let byte (n : Nat) : Text.Bytes := UInt8.ofNat n :: done
        match place with
        | 0 => bytesFrom 1 bits 0 done cs
        | 1 => bytesFrom 2 (bits % 16) 0 (byte (carry * 4 + bits / 16)) cs
        | 2 => bytesFrom 3 (bits % 4) 0 (byte (carry * 16 + bits / 4)) cs
        | _ => bytesFrom 0 0 0 (byte (carry * 64 + bits)) cs

def isAscii (c : Char) : Bool := c.toNat < 0x80

/-- The report of the first characters of a text that are not of ASCII: one is shown, several are given by their
positions. -/
def notAsciiReport (cs : List Char) : String :=
  let start := (cs.takeWhile isAscii).length
  let foreign := (cs.drop start).takeWhile fun c => !isAscii c
  "'ascii' codec can't encode " ++
    (match foreign with
    | [c] => "character '" ++ Text.asciiOnly (String.singleton c) ++ "' in position " ++ toString start
    | _ => "characters in position " ++ toString start ++ "-" ++ toString (start + foreign.length - 1)) ++
    ": ordinal not in range(128)"

def bytes (s : String) : Except Wrong Text.Bytes :=
  let cs := s.toList
  if cs.all isAscii then bytesFrom 0 0 0 [] cs else .error (.notAscii (notAsciiReport cs))

/-- Bytes as a value: they are shown as a text in quotes, each by the character of its number. -/
def ofBytes (bs : Text.Bytes) : Special :=
  let text := "b" ++ Text.asciiOnly (Text.quoted (String.ofList (bs.map fun b => Char.ofNat b.toNat)))
  { shown := text, exact := text, empty := bs.isEmpty }

end CodeReview.Value.Yaml
