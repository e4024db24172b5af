import Attest.Bytes
import Attest.Calendar.DateTime

/-! The reader of dates and times written as in ISO 8601: a day by month or by week, in the basic or
the extended format, then, after any one character, a time of day with as many digits as wanted, and
an offset from universal time. -/

namespace Attest.Iso8601

def byte (c : Char) : UInt8 := UInt8.ofNat c.toNat

def digit? (b : UInt8) : Option Nat :=
  if 0x30 ≤ b && b ≤ 0x39 then some (b.toNat - 0x30) else none

def isDigit (b : UInt8) : Bool := (digit? b).isSome

/-- The number that the next `width` digits stand for when they follow the digits of `n`. -/
def numberAfter (n : Nat) : (width : Nat) → Bytes → Option (Nat × Bytes)
  | 0, rest => some (n, rest)
  | width + 1, b :: rest => do numberAfter (10 * n + (← digit? b)) width rest
  | _ + 1, [] => none

def number (width : Nat) (text : Bytes) : Option (Nat × Bytes) := numberAfter 0 width text

/-- The length of the part that gives the day. -/
def dateLength (text : Bytes) : Option Nat :=
  let is (i : Nat) (c : Char) : Bool := text[i]? == some (byte c)
  let length := text.length
  if length < 7 then none
  else if length = 7 then some 7
  else if is 4 '-' then
    if is 5 'W' then
      if 8 < length && is 8 '-' then
        if length = 9 then none
        else if 10 < length && (text[10]?.any isDigit) then some 8
        else some 10
      else some 8
    else some 10
  else if is 4 'W' then
    -- A week and a day of it can be told from a week alone only by the number of digits.
    let stop := 7 + ((text.drop 7).takeWhile isDigit).length
    some (if stop < 9 then stop else if stop % 2 = 0 then 7 else 8)
  else some 8

/-- What remains after a hyphen, where the extended format asks for one. -/
def hyphen (extended : Bool) (text : Bytes) : Option Bytes :=
  if extended then
    match text with
    | b :: rest => if b = byte '-' then some rest else none
    | [] => none
  else some text

/-- The day that the first `length` bytes give. -/
def date (length : Nat) (text : Bytes) : Option Date := do
  let (year, rest) ← number 4 text
  let extended := rest.head? == some (byte '-')
  let rest := if extended then rest.tail else rest
  if rest.head? == some (byte 'W') then
    let (week, rest) ← number 2 rest.tail
    if text.length - rest.length < length then
      let (weekday, _) ← number 1 (← hyphen extended rest)
      Date.ofWeek? year week weekday
    else Date.ofWeek? year week 1
  else
    let (month, rest) ← number 2 rest
    let (day, rest) ← number 2 (← hyphen extended rest)
    if text.length - rest.length = length then Date.of? year month day else none

/-- The numbers of a time of day, which may be out of range. -/
structure Fields where
  hour : Nat
  minute : Nat
  second : Nat
  microsecond : Nat
  deriving DecidableEq, Repr

namespace Fields

def ofList (values : List Nat) (microsecond : Nat) : Fields :=
  ⟨values.getD 0 0, values.getD 1 0, values.getD 2 0, microsecond⟩

/-- The fields as a number of seconds, without the microseconds. -/
def seconds (f : Fields) : Nat := f.hour * 3600 + f.minute * 60 + f.second

end Fields

/-- The byte at the start of a text; a zero byte ends a text like its end. -/
def next? (text : Bytes) : Option UInt8 := text.head?.filter (· != 0)

/-- The decimal places of the seconds, of which six count, at the start of the last `length` bytes
before `after`, and whether something follows them. -/
def fraction (values : List Nat) (text after : Bytes) : Option (Fields × Bool) := do
  let places := min text.length 6
  let (n, rest) ← number places text
  let rest := (rest ++ after).dropWhile isDigit
  return (Fields.ofList values (n * 10 ^ (6 - places)), (next? rest).isSome)

/-- Reads the hours, minutes or seconds after the `values` already read, with colons in between if
`colons` holds, from a `text` that stands before `after`; with them comes whether something follows
that is no part of a time. -/
def time (fuel : Nat) (values : List Nat) (colons : Bool) (text after : Bytes) :
    Option (Fields × Bool) :=
  match fuel with
  | 0 => fraction values text after
  | fuel + 1 => do
    let (n, rest) ← number 2 text
    let values := values ++ [n]
    let next := next? (rest ++ after)
    -- A colon after the hour asks for one after the minute.
    let colons := if values.length = 1 then next == some (byte ':') else colons
    if rest.length ≤ 1 then return (Fields.ofList values 0, next.isSome)
    if colons && next == some (byte ':') then time fuel values colons rest.tail after
    else if next == some (byte '.') || next == some (byte ',') then
      fraction values rest.tail after
    else if colons then none
    else time fuel values colons rest after

def beginsOffset (b : UInt8) : Bool := b == byte '+' || b == byte '-' || b == byte 'Z'

/-- The offset that a text gives, `sign` being its first byte. -/
def offset (sign : UInt8) (text : Bytes) : Option Offset :=
  if sign == byte 'Z' then if (next? text).isNone then some .zero else none
  else do
    let (fields, more) ← time 3 [] true text []
    if more then none
    let signed (n : Nat) : Int := if sign == byte '-' then -(n : Int) else n
    -- An offset of less than a second is dropped.
    if fields.seconds = 0 then return .zero
    Offset.of? (signed (fields.seconds * microsecondsPerSecond + fields.microsecond))

def timeAndOffset (text : Bytes) : Option (TimeOfDay × Option Offset) := do
  let before := text.takeWhile fun b => !beginsOffset b
  let after := text.dropWhile fun b => !beginsOffset b
  let (fields, more) ← time 3 [] true before after
  let clock ← TimeOfDay.of? fields.hour fields.minute fields.second fields.microsecond
  match after with
  | [] => if more then none else return (clock, none)
  | sign :: rest => return (clock, some (← offset sign rest))

/-- The number of bytes of the character that begins with a byte. -/
def characterLength (b : UInt8) : Nat :=
  if b < 0x80 then 1 else if b < 0xe0 then 2 else if b < 0xf0 then 3 else 4

/-- The date and time that a text gives, at midnight if it gives no time. -/
def parse? (text : Bytes) : Option DateTime := do
  let length ← dateLength text
  let day ← date length text
  match text.drop length with
  | [] => return ⟨day, default, none⟩
  | separator :: rest =>
    -- The separator is any one character, of which the other bytes are passed over.
    let (clock, offset) ← timeAndOffset (rest.drop (characterLength separator - 1))
    return ⟨day, clock, offset⟩

end Attest.Iso8601
