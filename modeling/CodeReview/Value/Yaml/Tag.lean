import CodeReview.Entries
import CodeReview.Text.Utf8
import CodeReview.Value.Yaml.Cursor
import CodeReview.Value.Yaml.Fault
/-!
# Tags

A tag says what sort of node is meant. It is written in full between `!<` and `>`, or as a handle and a name: the
handle, which lies between two exclamation marks or is one or two of them, stands for what full names begin with
(`Handles`). In a name, bytes may be written by a percent sign and their two digits.
-/
namespace CodeReview.Value.Yaml

inductive Tag where
  /-- The mark alone, which reads a scalar as if it had no quotes. -/
  | bare
  /-- A name of the sorts that every document knows. -/
  | core (name : String)
  /-- Any other name. -/
  | other (name : String)
  deriving DecidableEq, Repr

/-- A tag as it is written; without a handle the name is the full one. -/
structure TagText where
  handle : Option String
  name : String
  deriving DecidableEq, Repr

/-- What full names begin with, by handle. -/
abbrev Handles := Entries String

/-- What the names of the sorts that every document knows begin with. -/
def coreTags : String := "tag:yaml.org,2002:"

/-- The handles of a document that gives none. -/
def commonHandles : Handles := [("!", "!"), ("!!", coreTags)]

def Tag.ofName (name : String) : Tag :=
  if name == "!" then .bare
  else if coreTags.toList.isPrefixOf name.toList then .core (String.ofList (name.toList.drop coreTags.length))
  else .other name

def Tag.name : Tag → String
  | bare => "!"
  | core name => coreTags ++ name
  | other name => name

def TagText.resolve (handles : Handles) (t : TagText) : Option Tag :=
  match t.handle with
  | none => some (.ofName t.name)
  | some h => (handles.get? h).map fun front => .ofName (front ++ t.name)

/-! ## Reading -/

def isTagChar (c : Char) : Bool := c.isAlphanum || "-;/?:@&=+$,_.!~*'()[]%".contains c

/-- What a handle and a name are read for, and where that begins. -/
structure TagUse where
  scanning : Work
  parsing : Work
  start : Mark

def TagUse.ofNode (start : Mark) : TagUse := ⟨.tag, .tagName, start⟩

def TagUse.ofInstruction (start : Mark) : TagUse := ⟨.instruction, .instructionTag, start⟩

def TagUse.refuse {α : Type} (use : TagUse) (wanted : String) (c : Cursor) : Except Fault α :=
  .error (.during use.scanning use.start c.mark (.notThis wanted c.peek))

/-- Reads bytes that are written by a percent sign and two digits each. -/
def readBytes (use : TagUse) : (fuel : Nat) → (done : Text.Bytes) → Cursor → Except Fault (Text.Bytes × Cursor)
  | 0, done, c => .ok (done, c)
  | fuel + 1, done, c =>
    if c.peek != some '%' then .ok (done, c)
    else
      let c := c.next
      match c.code 2 with
      | .ok n => readBytes use fuel (done ++ [UInt8.ofNat n]) (c.skip 2)
      | .error found => .error (.during use.scanning use.start c.mark
          (.notThis "URI escape sequence of 2 hexadecimal numbers" found))

def readTagNameFrom (use : TagUse) : (fuel : Nat) → (done : String) → Cursor → Except Fault (String × Cursor)
  | 0, done, c => .ok (done, c)
  | fuel + 1, done, c => do
    let word := c.run fun a => isTagChar a && a != '%'
    let done := done ++ String.ofList word
    let c := c.skip word.length
    if c.peek != some '%' then return (done, c)
    let (bytes, behind) ← readBytes use c.left [] c
    match Text.Utf8.decode bytes with
    | .ok part => readTagNameFrom use fuel (done ++ part) behind
    | .error e => throw (.during use.scanning use.start c.mark (.notText e.message))

def readTagName (use : TagUse) (c : Cursor) : Except Fault (String × Cursor) :=
  if (c.peek.map isTagChar).getD false then readTagNameFrom use (c.left + 1) "" c
  else .error (.during use.parsing use.start c.mark (.notThis "URI" c.peek))

/-- Reads the handle at a cursor, which stands at its exclamation mark. -/
def readHandle (use : TagUse) (c : Cursor) : Except Fault (String × Cursor) :=
  if c.peek != some '!' then use.refuse "'!'" c
  else if c.peekAt 1 == some ' ' then .ok ("!", c.next)
  else
    let word := c.next.run isNameChar
    let behind := c.skip (1 + word.length)
    if behind.peek == some '!' then .ok ("!" ++ String.ofList word ++ "!", behind.next)
    else use.refuse "'!'" behind

def readTag (c : Cursor) : Except Fault (TagText × Cursor) := do
  let use := TagUse.ofNode c.mark
  let rest := c.next
  if rest.peek == some '<' then
    let (name, c) ← readTagName use rest.next
    if c.peek != some '>' then throw (.during use.parsing use.start c.mark (.notThis "'>'" c.peek))
    return (⟨none, name⟩, c.next)
  if endsWord rest.peek then return (⟨none, "!"⟩, rest)
  let word := rest.run fun a => a != ' ' && !isBreak a
  let (handle, c) ← if word.contains '!' then readHandle use c else pure ("!", rest)
  let (name, c) ← readTagName use c
  return (⟨some handle, name⟩, c)

end CodeReview.Value.Yaml
