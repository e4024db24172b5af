import Attest.Calendar.Timestamp
import Attest.Json.Error
import Attest.Number.Text
import Attest.Text.Quoted
import Attest.Value.Basic

/-! The text of values in messages: plain, where a text stands for itself, and exact, where texts are
quoted and every value is written so that its type can be told. Inside lists and objects all values
are exact. -/

namespace Attest.Value

/-- Texts with a comma and a space between them. -/
def commaSeparated (texts : List String) : String := String.intercalate ", " texts

/-- A span of time as days, seconds and microseconds, only days being negative. -/
def spanText (microseconds : Int) : String :=
  let days := microseconds / microsecondsPerDay
  let inDay := (microseconds % microsecondsPerDay).toNat
  let part (name : String) (n : Int) : List String := if n = 0 then [] else [s!"{name}={n}"]
  let parts := part "days" days ++ part "seconds" (inDay / microsecondsPerSecond : Nat) ++
    part "microseconds" (inDay % microsecondsPerSecond : Nat)
  "datetime.timedelta(" ++ (if parts.isEmpty then "0" else commaSeparated parts) ++ ")"

def offsetText (o : Offset) : String :=
  if o.microseconds = 0 then "datetime.timezone.utc"
  else "datetime.timezone(" ++ spanText o.microseconds ++ ")"

/-- A point in time with its numbers in order; seconds and microseconds may be missing at the end
when they are zero. -/
def timeText (t : DateTime) : String :=
  let seconds : List Nat :=
    if t.time.microsecond.val != 0 then [t.time.second.val, t.time.microsecond.val]
    else if t.time.second.val != 0 then [t.time.second.val] else []
  let numbers := [t.date.year, t.date.month, t.date.day, t.time.hour.val, t.time.minute.val]
  let zone := match t.offset with
    | none => []
    | some o => ["tzinfo=" ++ offsetText o]
  "datetime.datetime(" ++ commaSeparated ((numbers ++ seconds).map toString ++ zone) ++ ")"

mutual

/-- The exact text of a value. -/
def exact : Value → String
  | null => "None"
  | bool true => "True"
  | bool false => "False"
  | int i => toString i
  | float x => String.ofList x.text
  | text s => Text.quote s
  | list items => "[" ++ commaSeparated (exactItems items) ++ "]"
  | object members => "\x7b" ++ commaSeparated (exactMembers members) ++ "\x7d"
  | time t => timeText t
  | credential ⟨context, id, type, issuer, issuanceDate, expirationDate, status, subject, schema,
      refreshService, termsOfUse, evidence, proof⟩ =>
    "Credential(" ++ commaSeparated [
      "context=" ++ exact context, "id=" ++ exact id, "type=" ++ exact type,
      "issuer=" ++ exact issuer, "issuance_date=" ++ exact issuanceDate,
      "expiration_date=" ++ exact expirationDate, "credential_status=" ++ exact status,
      "credential_subject=" ++ exact subject, "credential_schema=" ++ exact schema,
      "refresh_service=" ++ exact refreshService, "terms_of_use=" ++ exact termsOfUse,
      "evidence=" ++ exact evidence, "proof=" ++ exact proof] ++ ")"

def exactItems : List Value → List String
  | [] => []
  | v :: rest => exact v :: exactItems rest

/-- The exact texts of the members of an object, each with its name. -/
def exactMembers : List (String × Value) → List String
  | [] => []
  | (name, v) :: rest => (Text.quote name ++ ": " ++ exact v) :: exactMembers rest

end

mutual

/-- Whether a value can be written in a message: no whole number in it has more digits than allowed. -/
def isShowable : Value → Bool
  | int i => (Nat.toDigits 10 i.natAbs).length ≤ Json.digitLimit
  | list items => itemsShowable items
  | object members => membersShowable members
  | credential ⟨context, id, type, issuer, issuanceDate, expirationDate, status, subject, schema,
      refreshService, termsOfUse, evidence, proof⟩ =>
    isShowable context && isShowable id && isShowable type && isShowable issuer &&
      isShowable issuanceDate && isShowable expirationDate && isShowable status &&
      isShowable subject && isShowable schema && isShowable refreshService &&
      isShowable termsOfUse && isShowable evidence && isShowable proof
  | _ => true

def itemsShowable : List Value → Bool
  | [] => true
  | v :: rest => isShowable v && itemsShowable rest

def membersShowable : List (String × Value) → Bool
  | [] => true
  | (_, v) :: rest => isShowable v && membersShowable rest

end

/-- The plain text of a value. -/
def plain : Value → String
  | text s => s
  | time t => t.text.map fun c => if c = 'T' then ' ' else c
  | v => v.exact

/-- The exact text of a list of texts. -/
def exactTexts (texts : List String) : String :=
  "[" ++ commaSeparated (texts.map Text.quote) ++ "]"

end Attest.Value
