import CodeReview.Text.Lines
import CodeReview.Text.Utf8
/-!
# Source texts

A source text as grammars see it: its UTF-8 bytes, and the bytes of its lines. Columns of a concrete tree
count bytes; `Source.column` turns them into columns that count characters from one.
-/
namespace CodeReview.Grammar

open Text (Bytes)

/-- The bytes of a source text, whether all are ASCII, and the bytes of each line. -/
structure Source where
  bytes : Bytes
  ascii : Bool
  lines : List Bytes
  deriving DecidableEq, Repr

namespace Source

def ofBytes (bytes : Bytes) : Source :=
  ⟨bytes, bytes.all (· < 0x80), Text.splitOn 10 bytes⟩

def ofText (text : String) : Source := ofBytes (Text.Utf8.encode text)

/-- The text between two byte offsets; they may fall inside a character or behind the end. -/
def slice (s : Source) (start stop : Int) : String :=
  String.ofList (Text.Utf8.decodeLossy (Text.between start stop s.bytes))

/-- The column, in characters from one, of a byte column of a line, read off the line's bytes. -/
def columnIn (line : Bytes) (column : Int) : Int := (Text.Utf8.decodeLossy (Text.between 0 column line)).length + 1

/-- The line of a row; rows below zero are counted from the end. -/
def line? (s : Source) (row : Int) : Option Bytes :=
  let i := if row < 0 then s.lines.length + row else row
  if i < 0 then none else s.lines[i.toNat]?

/-- The column, in characters from one, of a byte column of a row. -/
def column (s : Source) (row column : Int) : Int :=
  if s.ascii then column + 1
  else match s.line? row with
    | none => column + 1
    | some line => columnIn line column

end Source
end CodeReview.Grammar
