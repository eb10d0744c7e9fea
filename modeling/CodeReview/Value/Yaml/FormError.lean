import CodeReview.Text.Quoted
import CodeReview.Value.Yaml.Cursor
/-!
# What is wrong with the form of a YAML document

A document may hold a character that may not stand in any (`FormError.unprintable`), or its parts may not fit
together (`Trouble`). Then it is told what was being read and since where (`Work`), what was met (`Wrong`), and
where that is; a place is left out where the next one is the same.
-/
namespace CodeReview.Value.Yaml

inductive Work where
  | token
  | key
  | instruction
  /-- A handle or the front of full names in an instruction. -/
  | instructionTag
  /-- The name of the node that follows, or the name of a node that is meant. -/
  | named
  | sameAs
  | tag
  /-- The name of a tag. -/
  | tagName
  | blockScalar
  | quotes
  /-- An escape between quotation marks. -/
  | escape
  /-- The properties of a node, or a node in a block or inside brackets. -/
  | node
  | blockNode
  | flowNode
  | blockList
  | blockTable
  | flowList
  | flowTable
  /-- A node of a name that has been given before. -/
  | repeated (name : String)
  /-- The only document. -/
  | document
  | table
  | orderedTable
  | pairs
  deriving DecidableEq, Repr

inductive Wrong where
  | noStart (c : Char)
  | noColon
  | noItemHere
  | noKeyHere
  | noValueHere
  /-- A character, or the end of the document, in place of something. -/
  | notThis (wanted : String) (found : Option Char)
  | zeroIndent
  | noEscape (found : Option Char)
  | endInQuotes
  | boundaryInQuotes
  /-- Bytes of a tag that are no text. -/
  | notText (report : String)
  | versionTwice
  | otherVersion
  | handleTwice (handle : String)
  | unknownHandle (handle : String)
  /-- A token in place of something. -/
  | otherToken (wanted found : String)
  /-- A token in place of a comma or a closing bracket. -/
  | noComma (closing : Char) (found : String)
  | unknownName (name : String)
  | nameTwice
  | otherDocument
  | noKey
  | unknownTag (name : String)
  /-- A node of a sort in place of something. -/
  | otherNode (wanted found : String)
  | notOneEntry (count : Nat)
  | notAscii (report : String)
  | noBytes (report : String)
  deriving DecidableEq, Repr

structure Trouble where
  work : Option Work := none
  since : Option Mark := none
  wrong : Wrong
  place : Mark
  deriving DecidableEq, Repr

inductive FormError where
  /-- A character that may not stand in a document, and the number of characters before it. -/
  | unprintable (c : Char) (index : Nat)
  | trouble (t : Trouble)
  deriving DecidableEq, Repr

/-! ## How it is told -/

def Work.message : Work → String
  | token => "while scanning for the next token"
  | key => "while scanning a simple key"
  | instruction => "while scanning a directive"
  | instructionTag => "while parsing a directive"
  | named => "while scanning an anchor"
  | sameAs => "while scanning an alias"
  | tag => "while scanning a tag"
  | tagName => "while parsing a tag"
  | blockScalar => "while scanning a block scalar"
  | quotes => "while scanning a quoted scalar"
  | escape => "while scanning a double-quoted scalar"
  | node => "while parsing a node"
  | blockNode => "while parsing a block node"
  | flowNode => "while parsing a flow node"
  | blockList => "while parsing a block collection"
  | blockTable => "while parsing a block mapping"
  | flowList => "while parsing a flow sequence"
  | flowTable => "while parsing a flow mapping"
  | repeated name => "found duplicate anchor " ++ Text.quoted name ++ "; first occurrence"
  | document => "expected a single document in the stream"
  | table => "while constructing a mapping"
  | orderedTable => "while constructing an ordered map"
  | pairs => "while constructing pairs"

/-- A character in quotes; the end of a document counts as U+0000. -/
def quotedChar (c : Option Char) : String := Text.quoted (String.singleton (c.getD (Char.ofNat 0)))

def Wrong.message : Wrong → String
  | noStart c => "found character " ++ quotedChar c ++ " that cannot start any token"
  | noColon => "could not find expected ':'"
  | noItemHere => "sequence entries are not allowed here"
  | noKeyHere => "mapping keys are not allowed here"
  | noValueHere => "mapping values are not allowed here"
  | notThis wanted found => "expected " ++ wanted ++ ", but found " ++ quotedChar found
  | zeroIndent => "expected indentation indicator in the range 1-9, but found 0"
  | noEscape found => "found unknown escape character " ++ quotedChar found
  | endInQuotes => "found unexpected end of stream"
  | boundaryInQuotes => "found unexpected document separator"
  | notText report => report
  | versionTwice => "found duplicate YAML directive"
  | otherVersion => "found incompatible YAML document (version 1.* is required)"
  | handleTwice handle => "duplicate tag handle " ++ Text.quoted handle
  | unknownHandle handle => "found undefined tag handle " ++ Text.quoted handle
  | otherToken wanted found => "expected " ++ wanted ++ ", but found " ++ Text.quoted found
  | noComma closing found => "expected ',' or '" ++ closing.toString ++ "', but got " ++ Text.quoted found
  | unknownName name => "found undefined alias " ++ Text.quoted name
  | nameTwice => "second occurrence"
  | otherDocument => "but found another document"
  | noKey => "found unhashable key"
  | unknownTag name => "could not determine a constructor for the tag " ++ Text.quoted name
  | otherNode wanted found => "expected " ++ wanted ++ ", but found " ++ found
  | notOneEntry count => "expected a single mapping item, but found " ++ toString count ++ " items"
  | notAscii report => "failed to convert base64 data into ascii: " ++ report
  | noBytes report => "failed to decode base64 data: " ++ report

def Mark.message (name : String) (m : Mark) : String :=
  "  in \"" ++ name ++ "\", line " ++ toString (m.line + 1) ++ ", column " ++ toString (m.column + 1)

def Trouble.lines (name : String) (t : Trouble) : List String :=
  (t.work.map Work.message).toList ++
    ((t.since.filter (· != t.place)).map (Mark.message name)).toList ++
    [t.wrong.message, t.place.message name]

def hex (n : Nat) : String :=
  let ds := Nat.toDigits 16 n
  String.ofList (List.replicate (4 - ds.length) '0' ++ ds)

def FormError.message (name : String) : FormError → String
  | unprintable c index =>
    "unacceptable character #x" ++ hex c.toNat ++ ": special characters are not allowed\n  in \"" ++ name ++
      "\", position " ++ toString index
  | trouble t => "\n".intercalate (t.lines name)

end CodeReview.Value.Yaml
