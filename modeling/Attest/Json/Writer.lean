import Attest.Json.Error
import Attest.Number.Text
import Attest.Text.Utf16
import Attest.Value.Object

/-! The writer of JSON text. A style fixes what stands between items and members and whether
characters outside ASCII are escaped; members keep their order. -/

namespace Attest.Json

/-- How JSON text is laid out. -/
structure Style where
  asciiOnly : Bool
  comma : List Char
  colon : List Char
  deriving DecidableEq, Repr

namespace Style

/-- A space after commas and colons, and characters as they are. -/
def spaced : Style := ⟨false, [',', ' '], [':', ' ']⟩

/-- No spaces, and ASCII only. -/
def compactAscii : Style := ⟨true, [','], [':']⟩

end Style

def escapeUnit (n : Nat) : List Char := '\\' :: 'u' :: Text.hex 4 n

/-- The character as it stands in a string. -/
def escape (asciiOnly : Bool) (c : Char) : List Char :=
  if c = '"' then ['\\', '"']
  else if c = '\\' then ['\\', '\\']
  else if c = '\n' then ['\\', 'n']
  else if c = '\r' then ['\\', 'r']
  else if c = '\t' then ['\\', 't']
  else if c = '\x0c' then ['\\', 'f']
  else if c = '\x08' then ['\\', 'b']
  else if c.toNat < 0x20 || asciiOnly && 0x7e < c.toNat then
    (Text.utf16Units c).flatMap escapeUnit
  else [c]

def stringChars (asciiOnly : Bool) (cs : List Char) : List Char :=
  '"' :: cs.flatMap (escape asciiOnly) ++ ['"']

/-- A floating point number; one that is not finite has a name. -/
def floatChars : Binary64 → List Char
  | .nan => "NaN".toList
  | .infinity false => "Infinity".toList
  | .infinity true => "-Infinity".toList
  | x => x.text

def intChars (i : Int) : List Char :=
  (if i < 0 then ['-'] else []) ++ Nat.toDigits 10 i.natAbs

mutual

/-- The text of a value. -/
def chars (style : Style) : Value → List Char
  | .null => "null".toList
  | .bool true => "true".toList
  | .bool false => "false".toList
  | .int i => intChars i
  | .float x => floatChars x
  | .text s => stringChars style.asciiOnly s.toList
  | .list [] => ['[', ']']
  | .list (v :: rest) => '[' :: chars style v ++ itemChars style rest
  | .object [] => ['{', '}']
  | .object ((name, v) :: rest) =>
    '{' :: stringChars style.asciiOnly name.toList ++ style.colon ++ chars style v ++
      memberChars style rest
  -- Points in time and credentials are not in JSON, and `write` refuses them.
  | .time _ => "null".toList
  | .credential _ => "null".toList

/-- The further items of a list and its end. -/
def itemChars (style : Style) : List Value → List Char
  | [] => [']']
  | v :: rest => style.comma ++ chars style v ++ itemChars style rest

/-- The further members of an object and its end. -/
def memberChars (style : Style) : List (String × Value) → List Char
  | [] => ['}']
  | (name, v) :: rest =>
    style.comma ++ stringChars style.asciiOnly name.toList ++ style.colon ++ chars style v ++
      memberChars style rest

end

mutual

/-- The first part of a value, in the order of writing, that has no JSON text. -/
def writeError? : Value → Option WriteError
  | .int i => if digitLimit < (Nat.toDigits 10 i.natAbs).length then some .tooManyDigits else none
  | .list items => writeErrorItems? items
  | .object members => writeErrorMembers? members
  | .time t => some (.notJson (Value.time t).typeName)
  | .credential c => some (.notJson (Value.credential c).typeName)
  | _ => none

def writeErrorItems? : List Value → Option WriteError
  | [] => none
  | v :: rest => writeError? v <|> writeErrorItems? rest

def writeErrorMembers? : List (String × Value) → Option WriteError
  | [] => none
  | (_, v) :: rest => writeError? v <|> writeErrorMembers? rest

end

/-- The JSON text of a value. -/
def write (style : Style) (v : Value) : Except WriteError String :=
  match writeError? v with
  | some e => .error e
  | none => .ok (String.ofList (chars style v))

end Attest.Json
