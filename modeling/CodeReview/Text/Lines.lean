/-!
# Lines

A line ends at a line feed. `countLines` numbers lines the way an editor does: a text that ends with a
line feed has one more, empty, line after it, and an empty text has none. `universal` is the reading of
a file as text: a carriage return, alone or before a line feed, becomes a line feed. `ofLines` puts a line feed
behind each line. `between` cuts a part out of a list.
-/
namespace CodeReview.Text

/-- The pieces between the elements equal to a separator: one more than there are separators. -/
def splitOn {α : Type} [BEq α] (sep : α) : List α → List (List α)
  | [] => [[]]
  | a :: as =>
    if a == sep then [] :: splitOn sep as
    else match splitOn sep as with
      | [] => [[a]]
      | p :: ps => (a :: p) :: ps

/-- How many elements stand before a place; places below zero are counted from the end. -/
def before {α : Type} (place : Int) (as : List α) : Nat :=
  if place < 0 then (as.length + place).toNat else place.toNat

def between {α : Type} (start stop : Int) (as : List α) : List α :=
  let first := before start as
  (as.drop first).take (before stop as - first)

/-- How many lines a text has: none when it is empty, else one more than it has line feeds. -/
def countLines (s : String) : Nat :=
  if s.isEmpty then 0 else s.toList.count '\n' + 1

/-- Turns each carriage return, with the line feed that may follow it, into one line feed. -/
def unifyBreaks : List Char → List Char
  | [] => []
  | '\r' :: '\n' :: cs => '\n' :: unifyBreaks cs
  | '\r' :: cs => '\n' :: unifyBreaks cs
  | c :: cs => c :: unifyBreaks cs

def universal (s : String) : String := String.ofList (unifyBreaks s.toList)

/-- Lines, each with the line feed that ends it. -/
def ofLines (lines : List String) : String := lines.foldl (fun out l => out ++ l ++ "\n") ""

def joinWith (sep : String) : List String → String
  | [] => ""
  | [s] => s
  | s :: t :: rest => s ++ sep ++ joinWith sep (t :: rest)

end CodeReview.Text
