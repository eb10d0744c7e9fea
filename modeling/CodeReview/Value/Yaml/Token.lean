import CodeReview.Value.Yaml.Tag
/-!
# Tokens of YAML

What a document consists of once its characters have been read: the marks it holds, the marks that follow from
indentation and from the place of colons, the scalars, and the properties that may stand before a node. What
comes last is the end of the document or what is wrong with it. A lexeme is a token where it stands.
-/
namespace CodeReview.Value.Yaml

inductive Instruction where
  /-- The version of the format, of which the first number counts. -/
  | version (major : Nat)
  /-- A handle, and what it stands for. -/
  | handle (name front : String)
  | other
  deriving DecidableEq, Repr

inductive Token where
  | instruction (what : Instruction)
  | documentStart
  | documentEnd
  /-- The beginning of a list or of a table by indentation, and the end of either. -/
  | beginList
  | beginTable
  | endBlock
  | openList
  | openTable
  | closeList
  | closeTable
  | comma
  /-- The hyphen of an item. -/
  | dash
  /-- The beginning of a key. -/
  | key
  /-- The colon before the value of a key. -/
  | colon
  /-- The name of the node that follows. -/
  | named (name : String)
  /-- The node of a name. -/
  | sameAs (name : String)
  | tagged (tag : TagText)
  | scalar (text : String) (plain : Bool)
  | stop
  | fault (why : Fault)
  deriving DecidableEq, Repr

def Token.label : Token → String
  | instruction _ => "<directive>"
  | documentStart => "<document start>"
  | documentEnd => "<document end>"
  | beginList => "<block sequence start>"
  | beginTable => "<block mapping start>"
  | endBlock => "<block end>"
  | openList => "["
  | openTable => "\x7b"
  | closeList => "]"
  | closeTable => "\x7d"
  | comma => ","
  | dash => "-"
  | key => "?"
  | colon => ":"
  | named _ => "<anchor>"
  | sameAs _ => "<alias>"
  | tagged _ => "<tag>"
  | scalar _ _ => "<scalar>"
  | stop | fault _ => "<stream end>"

structure Lexeme where
  token : Token
  start : Mark
  stop : Mark

end CodeReview.Value.Yaml
