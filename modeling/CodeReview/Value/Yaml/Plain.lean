import CodeReview.Value.Yaml.Cursor
/-!
# Unquoted scalars

An unquoted scalar is a sequence of runs with gaps between them. A run ends at a blank, a tab or a line break, at
a colon that a word ends behind, and inside brackets also at the characters that have a meaning there. A gap is
blanks, or line breaks with the blanks around them; a single line break counts as a blank, and of several the
first is left out.
-/
namespace CodeReview.Value.Yaml

def isFlowMark (c : Char) : Bool := ",[]\x7b\x7d".contains c

def endsRun (inFlow : Bool) (c : Char) (next : Option Char) : Bool :=
  endsWord (some c) ||
    (c == ':' && (endsWord next || (inFlow && (next.map isFlowMark).getD false))) ||
    (inFlow && (isFlowMark c || c == '?'))

def runLength (inFlow : Bool) : List Char → Nat
  | [] => 0
  | c :: cs => if endsRun inFlow c cs.head? then 0 else runLength inFlow cs + 1

def foldBreaks (first : Char) (more : String) : String :=
  if breakText first != "\n" then breakText first ++ more
  else if more.isEmpty then " "
  else more

/-- Passes over blanks and line breaks, and gives the text of the breaks; nothing is given where a mark between
documents stands behind one of them. -/
def plainBreaks : (fuel : Nat) → (breaks : String) → Cursor → Option String × Cursor
  | 0, breaks, c => (some breaks, c)
  | fuel + 1, breaks, c =>
    match c.break? with
    | some b =>
      if c.next.atBoundary then (none, c.next) else plainBreaks fuel (breaks ++ breakText b) c.next
    | none => if c.peek == some ' ' then plainBreaks fuel breaks c.next else (some breaks, c)

/-- A gap: its text, which is empty where no run may follow, whether it has a line break, and what is ahead. -/
structure Gap where
  text : String
  broken : Bool
  cursor : Cursor

def Gap.at (c : Cursor) : Gap :=
  let blanks := c.run (· == ' ')
  let c := c.skip blanks.length
  match c.break? with
  | none => ⟨String.ofList blanks, false, c⟩
  | some b =>
    if c.next.atBoundary then ⟨"", true, c.next⟩
    else match plainBreaks c.left "" c.next with
      | (some more, c) => ⟨foldBreaks b more, true, c⟩
      | (none, c) => ⟨"", true, c⟩

/-- An unquoted scalar: its text, whether it ends with a line break, and what is ahead. -/
structure Plain where
  text : String
  broken : Bool
  cursor : Cursor

/-- Reads on in an unquoted scalar, behind the gap at its end. Outside brackets a scalar goes on only on lines
that are indented as far as `indent`. -/
def Plain.extend (inFlow : Bool) (indent : Int) : (fuel : Nat) → (done : Plain) → (gap : String) → Plain
  | 0, done, _ => done
  | fuel + 1, done, gap =>
    let c := done.cursor
    let n := if c.peek == some '#' then 0 else runLength inFlow c.ahead
    if n == 0 then done
    else
      let after := Gap.at (c.skip n)
      let done : Plain := ⟨done.text ++ gap ++ String.ofList (c.ahead.take n), after.broken, after.cursor⟩
      if after.text.isEmpty || (!inFlow && after.cursor.column < indent) then done
      else extend inFlow indent fuel done after.text

def Plain.at (inFlow : Bool) (indent : Int) (c : Cursor) : Plain :=
  extend inFlow indent (c.left + 1) ⟨"", false, c⟩ ""

end CodeReview.Value.Yaml
