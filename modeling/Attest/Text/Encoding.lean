import Attest.Text.Hex

/-! What can go wrong between characters and bytes: characters that ASCII lacks, and bytes that stand
for no character in an encoding. -/

namespace Attest.Text

/-- Consecutive characters outside ASCII: the first one, where it stands and how many there are. -/
structure AsciiError where
  first : Char
  position : Nat
  count : Nat
  deriving DecidableEq, Repr

namespace AsciiError

/-- The code point of a character outside ASCII, as short as its size allows. -/
def codePoint (c : Char) : String :=
  String.ofList <|
    if c.toNat < 0x100 then '\\' :: 'x' :: hex 2 c.toNat
    else if c.toNat < 0x10000 then '\\' :: 'u' :: hex 4 c.toNat
    else '\\' :: 'U' :: hex 8 c.toNat

def message (e : AsciiError) : String :=
  let characters :=
    if e.count = 1 then s!"character '" ++ codePoint e.first ++ s!"' in position {e.position}"
    else s!"characters in position {e.position}-{e.position + e.count - 1}"
  "'ascii' codec can't encode " ++ characters ++ ": ordinal not in range(128)"

end AsciiError

/-- The bytes of a text that is ASCII throughout. -/
def ascii (cs : List Char) : Except AsciiError (List UInt8) :=
  let inside (c : Char) : Bool := c.toNat < 128
  match cs.dropWhile inside with
  | [] => .ok (cs.map fun c => UInt8.ofNat c.toNat)
  | c :: rest =>
    .error ⟨c, (cs.takeWhile inside).length, 1 + (rest.takeWhile fun c => !inside c).length⟩

/-- Why bytes stand for no character. -/
inductive DecodeError.Reason where
  | invalidStart
  | invalidContinuation
  | unexpectedEnd
  | truncated
  | beyondUnicode
  deriving DecidableEq, Repr

def DecodeError.Reason.message : DecodeError.Reason → String
  | .invalidStart => "invalid start byte"
  | .invalidContinuation => "invalid continuation byte"
  | .unexpectedEnd => "unexpected end of data"
  | .truncated => "truncated data"
  | .beyondUnicode => "code point not in range(0x110000)"

/-- Bytes at a position that stand for no character in an encoding. -/
structure DecodeError where
  encoding : String
  bytes : List UInt8
  position : Nat
  reason : DecodeError.Reason
  deriving DecidableEq, Repr

def DecodeError.message (e : DecodeError) : String :=
  let place := match e.bytes with
    | [b] => "byte 0x" ++ String.ofList (hex 2 b.toNat) ++ s!" in position {e.position}"
    | bytes => s!"bytes in position {e.position}-{e.position + bytes.length - 1}"
  "'" ++ e.encoding ++ "' codec can't decode " ++ place ++ ": " ++ e.reason.message

/-- The character of a code point. Texts are sequences of Unicode scalar values; a surrogate is none, and
where it is not half of a pair it is read as U+FFFD. -/
def characterAt (n : Nat) : Char := if h : n.isValidChar then Char.ofNatAux n h else '\uFFFD'

theorem characterAt_toNat (c : Char) : characterAt c.toNat = c := by
  have h : c.toNat.isValidChar := c.valid
  rw [characterAt, dif_pos h]
  rfl

end Attest.Text
