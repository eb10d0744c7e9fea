import CodeReview.Number.Decimal
import CodeReview.Text.Quoted
import CodeReview.Value.Literal
/-!
# Writing JSON

Two layouts of one grammar. `compact` puts a whole value on one line, with `, ` and `: ` between its
parts; `pretty` starts a new line for each part, indented by two spaces a level, and leaves empty lists
and tables on their line. Text is ASCII: every other character is escaped by its UTF-16 units, so no
written text holds a line feed.
-/
namespace CodeReview.Value

open Text (hex)

def jsonUnit (n : Nat) : String := "\\u" ++ hex 4 n

def jsonChar (c : Char) : String :=
  let n := c.toNat
  if c == '"' then "\\\""
  else if c == '\\' then "\\\\"
  else if c == '\n' then "\\n"
  else if c == '\r' then "\\r"
  else if c == '\t' then "\\t"
  else if n == 8 then "\\b"
  else if n == 12 then "\\f"
  else if 32 ≤ n && n ≤ 126 then String.singleton c
  else if n < 0x10000 then jsonUnit n
  else
    let m := n - 0x10000
    jsonUnit (0xD800 + m / 0x400) ++ jsonUnit (0xDC00 + m % 0x400)

/-- A JSON text, quotes included, put after `out`. -/
def jsonText (out : String) (s : String) : String :=
  s.foldl (fun o c => o ++ jsonChar c) (out ++ "\"") ++ "\""

def jsonFloat (x : Float) : String :=
  match Number.Binary.ofFloat x with
  | some _ => Number.floatText x
  | none => if x.isNaN then "NaN" else if x < 0 then "-Infinity" else "Infinity"

/-- How the parts of a JSON value are set: all on one line, or each on its own, indented. -/
inductive Setting where
  | line
  | block
  deriving DecidableEq

/-- What stands before a part at a depth: the first part of its value, or a later one. -/
def Setting.gap : Setting → (first : Bool) → (depth : Nat) → String
  | .line, true, _ => ""
  | .line, false, _ => ", "
  | .block, first, depth =>
    (if first then "\n" else ",\n") ++ String.ofList (List.replicate (2 * depth) ' ')

/-- What stands between the last part and the closing bracket at a depth. -/
def Setting.close : Setting → (depth : Nat) → String
  | .line, _ => ""
  | .block, depth => "\n" ++ String.ofList (List.replicate (2 * depth) ' ')

def jsonKey : Value → String
  | .null => "null"
  | .bool b => if b then "true" else "false"
  | .int n => toString n
  | .float x => jsonFloat x
  | v => v.display

mutual

def writeJson (st : Setting) (depth : Nat) (out : String) : Value → String
  | .null => out ++ "null"
  | .bool true => out ++ "true"
  | .bool false => out ++ "false"
  | .int n => out ++ toString n
  | .float x => out ++ jsonFloat x
  | .text s => jsonText out s
  | .list [] => out ++ "[]"
  | .list (v :: vs) =>
    writeItems st (depth + 1) true (out ++ "[") (v :: vs) ++ st.close depth ++ "]"
  | .map [] => out ++ "\x7b\x7d"
  | .map (e :: es) =>
    writeEntries st (depth + 1) true (out ++ "\x7b") (e :: es) ++ st.close depth ++ "\x7d"
  | .special s => jsonText out s.shown
  | .keyed [] => out ++ "\x7b\x7d"
  | .keyed (e :: es) =>
    writePairs st (depth + 1) true (out ++ "\x7b") (e :: es) ++ st.close depth ++ "\x7d"

def writeItems (st : Setting) (depth : Nat) (first : Bool) (out : String) : List Value → String
  | [] => out
  | v :: vs =>
    writeItems st depth false (writeJson st depth (out ++ st.gap first depth) v) vs

def writeEntries (st : Setting) (depth : Nat) (first : Bool) (out : String) :
    List (String × Value) → String
  | [] => out
  | (k, v) :: es =>
    writeEntries st depth false
      (writeJson st depth (jsonText (out ++ st.gap first depth) k ++ ": ") v) es

def writePairs (st : Setting) (depth : Nat) (first : Bool) (out : String) : List (Value × Value) → String
  | [] => out
  | (k, v) :: es =>
    writePairs st depth false
      (writeJson st depth (jsonText (out ++ st.gap first depth) (jsonKey k) ++ ": ") v) es

end

def compact (v : Value) : String := writeJson .line 0 "" v

/-- A value as JSON over several lines, two spaces a level. -/
def pretty (v : Value) : String := writeJson .block 0 "" v

end CodeReview.Value
