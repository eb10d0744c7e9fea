import CodeReview.Number.Decimal
import CodeReview.Text.Quoted
import CodeReview.Value.Basic
/-!
# Values inside messages

`literal` is the text of a value where a message shows it exactly: texts are quoted, lists stand in
square and tables in curly brackets. `display` is the same, except that a text alone is shown as it is. The
entries of a table are found by what their keys display.
-/
namespace CodeReview.Value

open Text (quoted)

mutual

/-- The exact text of a value. -/
def literal : Value → String
  | .null => "None"
  | .bool true => "True"
  | .bool false => "False"
  | .int n => toString n
  | .float x => Number.floatText x
  | .text s => quoted s
  | .list vs => "[" ++ ", ".intercalate (literals vs) ++ "]"
  | .map es => "\x7b" ++ ", ".intercalate (literalEntries es) ++ "\x7d"
  | .special s => s.exact
  | .keyed es => "\x7b" ++ ", ".intercalate (literalPairs es) ++ "\x7d"

def literals : List Value → List String
  | [] => []
  | v :: vs => literal v :: literals vs

def literalEntries : List (String × Value) → List String
  | [] => []
  | (k, v) :: es => (quoted k ++ ": " ++ literal v) :: literalEntries es

def literalPairs : List (Value × Value) → List String
  | [] => []
  | (k, v) :: es => (literal k ++ ": " ++ literal v) :: literalPairs es

end

/-- The text of a value that is shown for what it says. -/
def display : Value → String
  | .text s => s
  | .special s => s.shown
  | v => v.literal

/-- The entries of a table, and none of anything else. -/
def entries : Value → Entries Value
  | .map es => es
  | .keyed es => es.map fun (k, v) => (k.display, v)
  | _ => []

def get? (v : Value) (key : String) : Option Value := Entries.get? v.entries key

end CodeReview.Value
