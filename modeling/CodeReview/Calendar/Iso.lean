import CodeReview.Calendar.Date
import CodeReview.Text.Utf8
/-!
# Reading dates and times

Reads a date, optionally followed by one separating character and a time of day, optionally followed by
an offset from UTC, in the extended (`2024-01-02T03:04:05`) and the basic form (`20240102T030405`).
A date may also be given by week (`2024-W01-2`). Where the separator stands follows from the form of the
date, so any character may separate. Past the end of the text every byte counts as zero.
-/
namespace CodeReview.Calendar

open Text (Bytes)

/-- A date and time as it was written, with the offset from UTC in microseconds if one was given. -/
structure Moment where
  date : Date
  seconds : Nat
  micros : Nat
  offset : Option Int
  deriving DecidableEq, Repr

/-- The instant of a moment; without an offset the moment is in UTC. -/
def Moment.instant (m : Moment) : Instant :=
  ⟨m.date.toDays * microsPerDay + (m.seconds : Int) * 1000000 + m.micros - m.offset.getD 0⟩

def Moment.ofInstant (t : Instant) : Moment :=
  ⟨t.date, t.ofDay / 1000000, t.ofDay % 1000000, some 0⟩

/-- The date and time of day as they were written, labelled as UTC; the offset is not looked at. -/
def Moment.label (m : Moment) : String :=
  toString m.date.year ++ "-" ++ zeros 2 m.date.month ++ "-" ++ zeros 2 m.date.day ++ " " ++
    clockText m.seconds ++ " UTC"

def isDigitByte (b : UInt8) : Bool := 0x30 ≤ b && b ≤ 0x39

/-- The byte at the head, zero past the end. -/
def peek (bs : Bytes) : UInt8 := bs.headD 0

def readDigits : (count acc : Nat) → Bytes → Option (Nat × Bytes)
  | 0, acc, bs => some (acc, bs)
  | count + 1, acc, bs =>
    match bs with
    | b :: rest => if isDigitByte b then readDigits count (acc * 10 + (b.toNat - 0x30)) rest else none
    | [] => none

/-- Where the date ends, in a text of at least seven bytes; `none` where the form is cut short. -/
def dateLength (bs : Bytes) : Option Nat :=
  let len := bs.length
  let at' (i : Nat) : UInt8 := bs.getD i 0
  if len == 7 then some 7
  else if at' 4 == 0x2D then
    if at' 5 == 0x57 then
      if 8 < len && at' 8 == 0x2D then
        if len == 9 then none
        else if 10 < len && isDigitByte (at' 10) then some 8
        else some 10
      else some 8
    else some 10
  else if at' 4 == 0x57 then
    let stop := 7 + ((bs.drop 7).takeWhile isDigitByte).length
    if stop < 9 then some stop else if stop % 2 == 0 then some 7 else some 8
  else some 8

def readDate (len : Nat) (bs : Bytes) : Option Date := do
  let (year, rest) ← readDigits 4 0 bs
  let separated := peek rest == 0x2D
  let rest := if separated then rest.drop 1 else rest
  if peek rest == 0x57 then
    let (week, rest) ← readDigits 2 0 (rest.drop 1)
    if bs.length - rest.length < len then
      if separated && peek rest != 0x2D then none
      else
        let (day, _) ← readDigits 1 0 (if separated then rest.drop 1 else rest)
        ofWeek year week day
    else ofWeek year week 1
  else
    let (month, rest) ← readDigits 2 0 rest
    if separated && peek rest != 0x2D then none
    else
      let (day, _) ← readDigits 2 0 (if separated then rest.drop 1 else rest)
      some ⟨year, month, day⟩

/-- The parts of a time of day or of an offset, and whether text is left over after them. -/
structure ClockParts where
  hour : Nat
  minute : Nat
  second : Nat
  micros : Nat
  more : Bool

/-- Reads the digits of a fraction of a second: six count, further ones are passed over. `size` is the
number of bytes up to the end of the part, the fraction may run on behind it. -/
def readFraction (size : Nat) (bs : Bytes) : Option (Nat × Bool) := do
  let count := min size 6
  let (n, rest) ← readDigits count 0 bs
  let micros := if count == 0 then n else n * Nat.pow 10 (6 - count)
  return (micros, peek (rest.dropWhile isDigitByte) != 0)

/-- Reads up to three pairs of digits and a fraction. `stage` counts the pairs read, `size` is the
number of bytes up to the end of the part. -/
def readClockFrom (colons : Bool) (parts : List Nat) : (pairs size : Nat) → Bytes → Option ClockParts
  | 0, size, bs => do
    let (micros, more) ← readFraction size bs
    return ⟨parts.getD 0 0, parts.getD 1 0, parts.getD 2 0, micros, more⟩
  | pairs + 1, size, bs => do
    let (n, rest) ← readDigits 2 0 bs
    let parts := parts ++ [n]
    let c := peek rest
    let colons := if parts.length == 1 then c == 0x3A else colons
    let left := size - 3
    if size ≤ 3 then
      return ⟨parts.getD 0 0, parts.getD 1 0, parts.getD 2 0, 0, c != 0⟩
    else if colons && c == 0x3A then readClockFrom colons parts pairs left (rest.drop 1)
    else if c == 0x2E || c == 0x2C then
      let (micros, more) ← readFraction left (rest.drop 1)
      return ⟨parts.getD 0 0, parts.getD 1 0, parts.getD 2 0, micros, more⟩
    else if !colons then readClockFrom colons parts pairs (left + 1) rest
    else none

def readClock (size : Nat) (bs : Bytes) : Option ClockParts := readClockFrom true [] 3 size bs

def startsOffset (b : UInt8) : Bool := b == 0x2B || b == 0x2D || b == 0x5A

/-- Where the offset begins in a time: the first sign or `Z`, or the end. -/
def offsetStart (bs : Bytes) : Nat := (bs.takeWhile fun b => !startsOffset b).length

/-- Reads an offset in microseconds: `Z`, or a sign and a time of less than a day. -/
def readOffset : Bytes → Option Int
  | [] => none
  | sign :: bs =>
    if sign == 0x5A then (if peek bs == 0 then some 0 else none)
    else do
      let p ← readClock bs.length bs
      if p.more then none
      else
        let micros : Int := ((p.hour * 3600 + p.minute * 60 + p.second : Nat) : Int) * 1000000 + p.micros
        if micros < microsPerDay then some (if sign == 0x2D then -micros else micros) else none

def moment? (date : Date) (p : ClockParts) (offset : Option Int) : Option Moment :=
  if date.isValid && p.hour < 24 && p.minute < 60 && p.second < 60 then
    some ⟨date, p.hour * 3600 + p.minute * 60 + p.second, p.micros, offset⟩
  else none

def charWidth (b : UInt8) : Nat :=
  if b < 0x80 then 1 else if b &&& 0xF0 == 0xE0 then 3 else if b &&& 0xF0 == 0xF0 then 4 else 2

def readMoment (s : String) : Option Moment := do
  let bs := Text.Utf8.encode s
  if bs.length < 7 then none
  else
    let len ← dateLength bs
    let date ← readDate len bs
    if bs.length ≤ len then moment? date ⟨0, 0, 0, 0, false⟩ none
    else
      let rest := (bs.drop len).drop (charWidth (bs.getD len 0))
      let stop := offsetStart rest
      let p ← readClock stop rest
      if stop == rest.length then
        if p.more then none else moment? date p none
      else
        let offset ← readOffset (rest.drop stop)
        moment? date p (some offset)

end CodeReview.Calendar
