import CodeReview.Text.Utf32
/-!
# Encodings

How the bytes of a file stand for characters. Besides UTF-8, which may begin with a mark, UTF-16 and UTF-32 there are
encodings in which each byte stands for one character: Latin-1, in which all do by their number, ASCII, in which
only the lower half does, and code page 1252, in which the bytes from 0x80 to 0x9F stand for other characters than
in Latin-1, and five of them for none.
-/
namespace CodeReview.Text

inductive Encoding where
  | utf8
  | markedUtf8
  | utf16
  | littleUtf16
  | bigUtf16
  | utf32
  | littleUtf32
  | bigUtf32
  | latin1
  | cp1252
  | ascii
  deriving DecidableEq, Repr, Inhabited

namespace Encoding

def all : List Encoding :=
  [.utf8, .markedUtf8, .utf16, .littleUtf16, .bigUtf16, .utf32, .littleUtf32, .bigUtf32, .latin1, .cp1252, .ascii]

/-- A name of an encoding with its letters lowered and one low line for the marks between its words. -/
def plainName (s : String) : String :=
  (s.toLower.toList.foldl (fun (out, (gap : Bool)) c =>
    if c.isAlphanum || c == '.' then ((if gap && !out.isEmpty then out.push '_' else out).push c, false)
    else (out, true)) ("", false)).1

def names : Encoding → List String
  | .utf8 => ["utf_8", "u8", "utf", "utf8", "utf8_ucs2", "utf8_ucs4", "cp65001"]
  | .markedUtf8 => ["utf_8_sig"]
  | .utf16 => ["utf_16", "u16", "utf16"]
  | .littleUtf16 => ["utf_16_le", "unicodelittleunmarked", "utf_16le"]
  | .bigUtf16 => ["utf_16_be", "unicodebigunmarked", "utf_16be"]
  | .utf32 => ["utf_32", "u32", "utf32"]
  | .littleUtf32 => ["utf_32_le", "utf_32le"]
  | .bigUtf32 => ["utf_32_be", "utf_32be"]
  | .latin1 => ["latin_1", "8859", "cp819", "csisolatin1", "ibm819", "iso8859", "iso8859_1", "iso_8859_1",
      "iso_8859_1_1987", "iso_ir_100", "l1", "latin", "latin1"]
  | .cp1252 => ["cp1252", "1252", "windows_1252"]
  | .ascii => ["ascii", "646", "ansi_x3.4_1968", "ansi_x3_4_1968", "ansi_x3.4_1986", "cp367", "csascii", "ibm367",
      "iso646_us", "iso_646.irv_1991", "iso_ir_6", "us", "us_ascii"]

def ofName? (s : String) : Option Encoding := all.find? fun e => e.names.contains (plainName s)

def unknownMessage (name : String) : String := "unknown encoding: " ++ name

/-- The text of bytes of which each stands for one character, or for none; `name` and `why` are for the report. -/
def decodeEach (name why : String) (char? : UInt8 → Option Char) (bs : Bytes) : Except String String :=
  match bs.zipIdx.find? fun b => (char? b.1).isNone with
  | some (b, i) => .error (Utf8.invalidMessage name b i 1 why)
  | none => .ok (String.ofList (bs.filterMap char?))

def latinChar (b : UInt8) : Char := Char.ofNat b.toNat

/-- The numbers of the characters of code page 1252 for the bytes from 0x80 to 0x9F, zero for none. -/
def cp1252Codes : List Nat :=
  [0x20AC, 0, 0x201A, 0x192, 0x201E, 0x2026, 0x2020, 0x2021, 0x2C6, 0x2030, 0x160, 0x2039, 0x152, 0, 0x17D, 0,
    0, 0x2018, 0x2019, 0x201C, 0x201D, 0x2022, 0x2013, 0x2014, 0x2DC, 0x2122, 0x161, 0x203A, 0x153, 0, 0x17E, 0x178]

def cp1252Char? (b : UInt8) : Option Char :=
  if 0x80 ≤ b && b < 0xA0 then
    (cp1252Codes[b.toNat - 0x80]?.filter (· != 0)).map Char.ofNat
  else some (latinChar b)

/-- Whether bytes may be the beginning of the mark before a text, and how long it is: a mark that is not complete
counts if nothing else is there. -/
def markLength (bs : Bytes) : Nat :=
  match bs with
  | 0xEF :: 0xBB :: 0xBF :: _ => 3
  | [0xEF, 0xBB] => 2
  | [0xEF] => 1
  | _ => 0

def decodeUtf8 (bs : Bytes) : Except String String := (Utf8.decode bs).mapError Utf8.Invalid.message

def decode : Encoding → Bytes → Except String String
  | .utf8, bs => decodeUtf8 bs
  | .markedUtf8, bs => decodeUtf8 (bs.drop (markLength bs))
  | .utf16, bs => Utf16.decodeMarked bs
  | .littleUtf16, bs => Utf16.decode .little bs
  | .bigUtf16, bs => Utf16.decode .big bs
  | .utf32, bs => Utf32.decodeMarked bs
  | .littleUtf32, bs => Utf32.decode .little bs
  | .bigUtf32, bs => Utf32.decode .big bs
  | .latin1, bs => .ok (String.ofList (bs.map latinChar))
  | .cp1252, bs => decodeEach "charmap" "character maps to <undefined>" cp1252Char? bs
  | .ascii, bs =>
    decodeEach "ascii" "ordinal not in range(128)" (fun b => if b < 0x80 then some (latinChar b) else none) bs

end Encoding
end CodeReview.Text
