import CodeReview.Value.Literal
import CodeReview.Value.Yaml.Merge
import CodeReview.Value.Yaml.Scalar
import CodeReview.Value.Yaml.Scan
/-!
# Reading YAML

The tree of a document becomes a value. A key that stands twice keeps its place and takes the later value; two
numbers are the same key if they are equal, a truth value counting as zero or one. A lone `=` is a text as a key
and nothing else.

Lists and tables are made before what is inside them. So of two things that are wrong, the one nearer to the
root of the tree is told, and of two at one level the first (`Made.faults`).
-/
namespace CodeReview.Value.Yaml

/-! ## Tables -/

def number? : Value → Option Number.Quantity
  | .bool b => some (.whole (if b then 1 else 0))
  | .int n => some (.whole n)
  | .float x => some (.decimal x)
  | _ => none

/-- Whether two numbers are the same as keys; what is no number is the same as itself. -/
def sameNumber (a b : Number.Quantity) : Bool :=
  (a.atMost b && b.atMost a) || (a.toFloat.isNaN && b.toFloat.isNaN)

def sameKey (a b : Value) : Bool :=
  match a, b with
  | .null, .null => true
  | .text s, .text t => s == t
  | .special s, .special t => s == t
  | a, b =>
    match number? a, number? b with
    | some x, some y => sameNumber x y
    | _, _ => false

def setKey : List (Value × Value) → Value → Value → List (Value × Value)
  | [], k, v => [(k, v)]
  | (k', v') :: es, k, v => if sameKey k' k then (k', v) :: es else (k', v') :: setKey es k v

def textKey? : Value × Value → Option (String × Value)
  | (.text k, v) => some (k, v)
  | _ => none

/-- The table of entries, whose keys may have to be other than texts. -/
def tableOf (es : List (Value × Value)) : Value :=
  match es.mapM textKey? with
  | some es => .map es
  | none => .keyed es

/-! ## Values -/

/-- What is made of a node: its value, whether that can be a key, and what is wrong with it. First comes what shows
at once, then, level by level, what shows when the nodes inside are turned to. -/
structure Made where
  value : Value := .null
  isKey : Bool := true
  faults : List (List Fault) := []

def beside : List (List Fault) → List (List Fault) → List (List Fault)
  | [], later => later
  | first, [] => first
  | a :: first, b :: later => (a ++ b) :: beside first later

namespace Made

/-- A node that stands for nothing, as shows at once. -/
def failed (why : Fault) : Made := { faults := [[why]] }

/-- A node that stands for nothing, as shows when what is inside is turned to. -/
def failedInside (why : Fault) : Made := { isKey := false, faults := [[], [why]] }

def ofExcept : Except Fault Value → Made
  | .ok v => { value := v }
  | .error why => failed why

def holding (v : Value) (inside : List (List Fault)) : Made := { value := v, isKey := false, faults := [] :: inside }

/-- What is made of the key of a table; `table` and `key` are where they begin. -/
def asKey (table key : Mark) (m : Made) : Made :=
  if m.isKey then m else { m with faults := beside m.faults [[.during .table table key .noKey]] }

def faultsOf (es : List (Made × Made)) : List (List Fault) :=
  es.foldr (fun e later => beside e.1.faults (beside e.2.faults later)) []

/-- The values of keys, of which none stands twice. -/
def entries (es : List (Made × Made)) : List (Value × Value) :=
  es.foldl (fun done e => setKey done e.1.value e.2.value) []

end Made

/-- An entry of a table of one as a value that is shown like a list in round brackets. -/
def pairOf (k v : Value) : Value :=
  let content := "(" ++ k.literal ++ ", " ++ v.literal ++ ")"
  .special { shown := content, exact := content }

/-- Values of which each is there once, as a value. -/
def setOf (vs : List Value) : Value :=
  let content := if vs.isEmpty then "set()" else "\x7b" ++ ", ".intercalate (Value.literals vs) ++ "\x7d"
  .special { shown := content, exact := content, empty := vs.isEmpty }

def unknownTag (start : Mark) (tag : Option Tag) : Fault := .at start (.unknownTag ((tag.map Tag.name).getD ""))

def misplaced (n : Node) (tag : Option Tag) : Made :=
  let name := sortOf "" tag
  let refuse (wanted : String) : Fault := .at n.start (.otherNode wanted n.sortName)
  let refuseFor (work : Work) : Fault := .during work n.start n.start (.otherNode "a sequence" n.sortName)
  if name == "seq" then .failedInside (refuse "a sequence node")
  else if name == "map" || name == "set" then .failedInside (refuse "a mapping node")
  else if name == "omap" then .failedInside (refuseFor .orderedTable)
  else if name == "pairs" then .failedInside (refuseFor .pairs)
  else if scalarSorts.contains name then .failed (refuse "a scalar node")
  else .failed (unknownTag n.start tag)

def ofScalar (start : Mark) (tag : Option Tag) (s : String) (plain : Bool) : Made :=
  let free : Except Fault Value :=
    if s == "=" then .error (unknownTag start (some (.core "value")))
    else if s == "<<" then .error (unknownTag start (some (.core "merge")))
    else (ofPlain s).mapError .value
  match tag with
  | none => if plain then .ofExcept free else { value := .text s }
  | some .bare => .ofExcept free
  | some (.core name) =>
    if scalarSorts.contains name then .ofExcept (ofSort start name s)
    else misplaced (.scalar start tag s plain) tag
  | some (.other _) => .failed (unknownTag start tag)

mutual

/-- The text of a node where a scalar is asked for; a table has that of its key `=`. -/
def Node.scalarText? : Node → Option String
  | .scalar _ _ s _ => some s
  | .table _ _ _ es => scalarTextIn es
  | _ => none

def scalarTextIn : List (Node × Node) → Option String
  | [] => none
  | (k, v) :: es => if k.isValueKey then v.scalarText? else scalarTextIn es

end

mutual

/-- What is made of a node in which nothing is left to be taken in; a mark for a node around it is a null. -/
def made : Node → Made
  | .scalar start tag s plain => ofScalar start tag s plain
  | .around _ => { isKey := false }
  | .list start tag ns =>
    let name := sortOf "seq" tag
    let ofPairs (work : Work) : Made :=
      let ms := madePairs work start ns
      .holding (.list (ms.map (·.value))) (ms.foldr (fun m later => beside m.faults later) [])
    if name == "seq" then
      let ms := madeAll ns
      .holding (.list (ms.map (·.value))) (ms.foldr (fun m later => beside m.faults later) [])
    else if name == "omap" then ofPairs .orderedTable
    else if name == "pairs" then ofPairs .pairs
    else misplaced (.list start tag ns) tag
  | .table start tag wrong es =>
    let name := sortOf "map" tag
    let ms := madeEntries start es
    let inside := beside [wrong] (Made.faultsOf ms)
    if name == "map" then .holding (tableOf (Made.entries ms)) inside
    else if name == "set" then .holding (setOf ((Made.entries ms).map (·.1))) inside
    else match if scalarSorts.contains name then scalarTextIn es else none with
      | some s => .ofExcept (ofSort start name s)
      | none => misplaced (.table start tag wrong es) tag

def madeAll : List Node → List Made
  | [] => []
  | n :: ns => made n :: madeAll ns

def madeEntries (start : Mark) : List (Node × Node) → List (Made × Made)
  | [] => []
  | (k, v) :: es => ((made k).asKey start k.start, made v) :: madeEntries start es

/-- What is made of tables that are pairs, each of which has to have one entry. -/
def madePairs (work : Work) (start : Mark) : List Node → List Made
  | [] => []
  | n :: ns => madePair work start n :: madePairs work start ns

def madePair (work : Work) (start : Mark) : Node → Made
  | .table _ _ _ [(k, v)] =>
    let key := made k
    let value := made v
    { value := pairOf key.value value.value, faults := beside key.faults value.faults }
  | .table at_ _ _ es => .failed (.during work start at_ (.notOneEntry es.length))
  | n => .failed (.during work start n.start (.otherNode "a mapping of length 1" n.sortName))

end

mutual

def Node.isEndless : Node → Bool
  | .scalar _ _ _ _ => false
  | .around _ => true
  | .list _ _ ns => anyEndless ns
  | .table _ _ _ es => anyEndlessEntry es

def anyEndless : List Node → Bool
  | [] => false
  | n :: ns => n.isEndless || anyEndless ns

def anyEndlessEntry : List (Node × Node) → Bool
  | [] => false
  | (_, v) :: es => v.isEndless || anyEndlessEntry es

end

/-- The value of a document; one without nodes is a null. What is wrong with several nodes is told of the one that
is turned to first. A table without end has no value, and a list without end stands for nothing but a list. -/
def parse (s : String) : Except Fault Value := do
  match ← tree (tokens s) with
  | none => return .null
  | some n =>
    let n := merged n
    let m := made n
    if let why :: _ := m.faults.flatten then throw why
    if n.isEndless && m.value.isTable then throw (.value .endless)
    return m.value

end CodeReview.Value.Yaml
