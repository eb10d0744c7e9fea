import CodeReview.Value.Yaml.Tree
/-!
# Tables that take in others

The entries of a table under the key `<<` are taken into the table around it, before its own; there may also be a
list of tables, of which the first wins. What is under that key and is no table is kept as what is wrong with the
table around it, because other things may be told first. A lone `=` as a key is a text.
-/
namespace CodeReview.Value.Yaml

/-! ## Nodes -/

def Node.sortName : Node → String
  | .scalar _ _ _ _ => "scalar"
  | .list _ _ _ => "sequence"
  | .table _ _ _ _ | .around _ => "mapping"

/-- The name of the sort that a node is told to be, if every document knows it; `usual` is the one of a node that is
told nothing. -/
def sortOf (usual : String) : Option Tag → String
  | none | some .bare => usual
  | some (.core name) => name
  | some (.other _) => ""

/-- Whether a node is an unquoted scalar of a text that is not told to be something else, or is told to be of the
sort that such a scalar has. -/
def Node.stands (n : Node) (s sort : String) : Bool :=
  match n with
  | .scalar _ none t plain => plain && t == s
  | .scalar _ (some .bare) t _ => t == s
  | .scalar _ tag _ _ | .list _ tag _ | .table _ tag _ _ => tag == some (.core sort)
  | .around _ => false

/-- Whether the value under a key is taken into the table around it. -/
def Node.isMerge (n : Node) : Bool := n.stands "<<" "merge"

/-- Whether a node is the key of what a table stands for where a scalar is asked for. -/
def Node.isValueKey (n : Node) : Bool := n.stands "=" "value"

/-- A node as a key: there a lone `=` is a text. -/
def Node.asKey (n : Node) : Node :=
  match n with
  | .scalar start tag s plain => .scalar start (if n.isValueKey then some (.core "str") else tag) s plain
  | n => n

/-! ## Merging -/

def Node.own? : Node → Option (List (Node × Node) × List Fault)
  | .table _ _ wrong es => some (es.map fun e => (e.1.asKey, e.2), wrong)
  | .around _ => some ([], [])
  | _ => none

/-- The entries that a table or a list of tables has to give away to a table that begins at a mark, and what is
wrong with them; of several tables the first wins. -/
def Node.given (start : Mark) (n : Node) : List (Node × Node) × List Fault :=
  let refuse (n : Node) (wanted : String) : Fault := .during .table start n.start (.otherNode wanted n.sortName)
  match n with
  | .list _ _ ns =>
    let parts := ns.map fun n => n.own?.getD ([], [refuse n "a mapping for merging"])
    ((parts.map (·.1)).reverse.flatten, (parts.map (·.2)).flatten)
  | n => n.own?.getD ([], [refuse n "a mapping or list of mappings for merging"])

/-- Whether a table of a tag takes in what is under its key `<<`. -/
def takesIn (tag : Option Tag) : Bool := ["map", "set"].contains (sortOf "map" tag)

mutual

def merged : Node → Node
  | .scalar start tag s plain => .scalar start tag s plain
  | .around start => .around start
  | .list start tag ns => .list start tag (mergedAll ns)
  | .table start tag wrong es =>
    let (why, taken, own) := mergedEntries start es
    if takesIn tag then .table start tag (wrong ++ why) (taken ++ own) else .table start tag wrong es

def mergedAll : List Node → List Node
  | [] => []
  | n :: ns => merged n :: mergedAll ns

/-- What is wrong with what a table that begins at a mark takes in, what it takes in, and its own entries. -/
def mergedEntries (start : Mark) : List (Node × Node) → List Fault × List (Node × Node) × List (Node × Node)
  | [] => ([], [], [])
  | (k, v) :: es =>
    let v := merged v
    let (wrong, taken, own) := mergedEntries start es
    if k.isMerge then
      let (entries, why) := v.given start
      (why ++ wrong, entries ++ taken, own)
    else (wrong, taken, (k.asKey, v) :: own)

end

end CodeReview.Value.Yaml
