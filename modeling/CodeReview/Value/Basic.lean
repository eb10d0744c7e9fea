import CodeReview.Entries
import CodeReview.Number.Quantity
/-!
# Values

What a settings file, a JSON document or a serialized result holds: a null, a truth value, an integer
of any size, a double, a text, a list, or a table of values in the order of its keys. An integer and a
double are different values even when they are equal as numbers.

A settings file may also hold what nothing is made of, dates and bytes for example, and tables of which not every
key is a text.
-/
namespace CodeReview

/-- A value that nothing is made of: how it is shown for what it says, and how exactly; and whether it counts as
absent where a section may be left out. -/
structure Special where
  shown : String
  exact : String
  empty : Bool := false
  deriving DecidableEq, Repr, Inhabited

inductive Value where
  | null
  | bool (b : Bool)
  | int (n : Int)
  | float (x : Float)
  | text (s : String)
  | list (vs : List Value)
  | map (es : List (String × Value))
  | special (s : Special)
  /-- A table of which not every key is a text; keys are no lists and no tables. -/
  | keyed (es : List (Value × Value))
  deriving Inhabited

namespace Value

def nat (n : Nat) : Value := .int n

def ofQuantity : Number.Quantity → Value
  | .whole n => .int n
  | .decimal x => .float x

def text? : Option String → Value
  | none => .null
  | some s => .text s

def int? : Option Int → Value
  | none => .null
  | some n => .int n

def texts (ss : List String) : Value := .list (ss.map .text)

/-- What a value is called when another sort was asked for. -/
def sortName : Value → String
  | .null => "NoneType"
  | .bool _ => "bool"
  | .int _ => "int"
  | .float _ => "float"
  | .text _ => "str"
  | .list _ => "list"
  | _ => "dict"

def isTable : Value → Bool
  | .map _ | .keyed _ => true
  | _ => false

/-- Whether a value counts as absent where a section may be left out: a null, `false`, zero, and an
empty text, list or table. -/
def isEmpty : Value → Bool
  | .null => true
  | .bool b => !b
  | .int n => n == 0
  | .float x => x == 0
  | .text s => s == ""
  | .list vs => vs.isEmpty
  | .map es => es.isEmpty
  | .special s => s.empty
  | .keyed es => es.isEmpty

end Value
end CodeReview
