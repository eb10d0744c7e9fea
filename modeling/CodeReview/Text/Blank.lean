/-!
# Blank characters and stripping

A character is *blank* when Unicode gives it the property White_Space, or when it is one of the four
information separators U+001C to U+001F. `strip` removes blank characters at both ends of a text and
touches nothing between them.
-/
namespace CodeReview.Text

/-- White space of Unicode, and the four information separators. -/
def isBlank (c : Char) : Bool :=
  let n := c.toNat
  (9 ≤ n && n ≤ 13) || (28 ≤ n && n ≤ 32) || n == 0x85 || n == 0xA0 || n == 0x1680 ||
    (0x2000 ≤ n && n ≤ 0x200A) || n == 0x2028 || n == 0x2029 || n == 0x202F || n == 0x205F ||
    n == 0x3000

def trimStart (cs : List Char) : List Char := cs.dropWhile isBlank

def dropEndWhile (p : Char → Bool) (cs : List Char) : List Char :=
  (cs.reverse.dropWhile p).reverse

def trim (cs : List Char) : List Char := dropEndWhile isBlank (trimStart cs)

def strip (s : String) : String := String.ofList (trim s.toList)

def padRight (width : Nat) (s : String) : String :=
  s ++ String.ofList (List.replicate (width - s.length) ' ')

def padLeft (width : Nat) (fill : Char) (s : String) : String :=
  String.ofList (List.replicate (width - s.length) fill) ++ s

end CodeReview.Text
