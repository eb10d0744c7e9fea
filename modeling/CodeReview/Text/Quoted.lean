import CodeReview.Text.Blank
import CodeReview.Text.Printable
/-!
# Quoted texts

A text inside a message stands between quotes. The quote is the apostrophe, unless the text holds an
apostrophe and no quotation mark. The quote itself, the backslash and every character that is not
printable are escaped, so that the quoted form is one line of printable characters.
-/
namespace CodeReview.Text

/-- The digits of a number in base sixteen, in lower case, at least `width` of them. -/
def hex (width n : Nat) : String :=
  padLeft width '0' (String.ofList (Nat.toDigits 16 n))

def quoteOf (cs : List Char) : Char :=
  if cs.contains '\'' && !cs.contains '"' then '"' else '\''

def codeEscape (c : Char) : String :=
  if c.toNat < 0x100 then "\\x" ++ hex 2 c.toNat
  else if c.toNat < 0x10000 then "\\u" ++ hex 4 c.toNat
  else "\\U" ++ hex 8 c.toNat

def escapeIn (quote c : Char) : String :=
  if c == quote || c == '\\' then String.ofList ['\\', c]
  else if c == '\n' then "\\n"
  else if c == '\r' then "\\r"
  else if c == '\t' then "\\t"
  else if isPrintable c then String.singleton c
  else codeEscape c

def quoted (s : String) : String :=
  let q := quoteOf s.toList
  s.toList.foldl (fun out c => out ++ escapeIn q c) (String.singleton q) ++ String.singleton q

def quotedList (ss : List String) : String :=
  "[" ++ ", ".intercalate (ss.map quoted) ++ "]"

/-- A text in which every character outside ASCII is written by its code. -/
def asciiOnly (s : String) : String :=
  s.toList.foldl (fun out c => out ++ (if c.toNat < 0x80 then String.singleton c else codeEscape c)) ""

end CodeReview.Text
