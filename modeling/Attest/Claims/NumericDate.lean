import Attest.Calendar.Timestamp
import Attest.Error
import Attest.Text.Classes
import Attest.Text.Utf8
import Attest.Value.Object

/-! Dates in claims: whole seconds since the epoch, made from the text of a date, from a number or
from a point in time, and read back as a point in time. -/

namespace Attest.Claims

/-- A text with a letter for universal time at its end replaced by the offset. -/
def expandZulu (cs : List Char) : List Char :=
  match cs.getLast? with
  | some c => if c = 'Z' || c = 'z' then cs.dropLast ++ "+00:00".toList else cs
  | none => cs

/-- The point in time that a text stands for: seconds since the epoch in digits, or a date. -/
def readDate (name s : String) : Except Error DateTime :=
  let cs := Text.strip s.toList
  if !cs.isEmpty && cs.all Text.isDigit then
    match readDigits cs with
    | .error e => .error (.basic (.literal e))
    | .ok n => (DateTime.ofSeconds n 0).mapError fun e => .basic (.range e)
  else
    match Iso8601.parse? (Text.Utf8.encode (expandZulu cs)) with
    | some t => .ok t
    | none => .error (.claim name (some (.invalidDate s)))

/-- The whole seconds since the epoch that a value of the claim `name` stands for. -/
def numericDate (name : String) : Value → Except Error Int
  -- A truth value counts as a number elsewhere, but is no date.
  | .bool _ => .error (.claim name (some .notDate))
  | .int i => .ok i
  | .float x => x.truncate.mapError fun e => .basic (.noInteger e)
  | .text s => (readDate name s).map DateTime.toSeconds
  | .time t => .ok t.toSeconds
  | v => .error (.claim name (some (.notDateType v.typeName)))

/-- The point in time that a claim gives, unless it is no number or out of range. -/
def time? (claims : Object) (name : String) : Option DateTime :=
  match (Object.getD claims name).number? with
  | some n => (DateTime.ofNumber n).toOption
  | none => none

def formatTime : Value → Except Error String
  | .time t => t.format.mapError fun e => .basic (.format e)
  | v => .error (.ofFault (.noAttribute v.operandTypeName "astimezone"))

end Attest.Claims
