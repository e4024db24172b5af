import Attest.Text.Encoding

/-! UTF-16 and UTF-32, in either byte order: characters as units of two or four bytes. -/

namespace Attest.Text

/-- Which byte of a unit comes first. -/
inductive ByteOrder where
  | bigEndian
  | littleEndian
  deriving DecidableEq, Repr

namespace ByteOrder

/-- The number that the bytes of a unit stand for. -/
def value (order : ByteOrder) (bytes : List UInt8) : Nat :=
  let ordered := match order with
    | .bigEndian => bytes
    | .littleEndian => bytes.reverse
  ordered.foldl (fun n b => 256 * n + b.toNat) 0

/-- The end of the name of an encoding with this byte order. -/
def suffix : ByteOrder → String
  | .bigEndian => "be"
  | .littleEndian => "le"

end ByteOrder

def isHighSurrogate (n : Nat) : Bool := 0xd800 ≤ n && n < 0xdc00

def isLowSurrogate (n : Nat) : Bool := 0xdc00 ≤ n && n < 0xe000

/-- The code point of a pair of surrogates. -/
def joinSurrogates (high low : Nat) : Nat := 0x10000 + (high - 0xd800) * 0x400 + (low - 0xdc00)

/-- The units of a text in UTF-16, each character being one unit or a pair. -/
def utf16Units (c : Char) : List Nat :=
  let n := c.toNat
  if n < 0x10000 then [n]
  else [0xd800 + (n - 0x10000) / 0x400, 0xdc00 + (n - 0x10000) % 0x400]

namespace Utf16

/-- Reads on after the characters `read` (last first) and the first half `high` of a pair. -/
def decodeUnits (read : List Char) (high : Option Nat) : List Nat → List Char
  | [] =>
    match high with
    | none => read.reverse
    | some h => (characterAt h :: read).reverse
  | n :: rest =>
    match high with
    | some h =>
      if isLowSurrogate n then decodeUnits (characterAt (joinSurrogates h n) :: read) none rest
      else if isHighSurrogate n then decodeUnits (characterAt h :: read) (some n) rest
      else decodeUnits (characterAt n :: characterAt h :: read) none rest
    | none =>
      if isHighSurrogate n then decodeUnits read (some n) rest
      else decodeUnits (characterAt n :: read) none rest

/-- Reads units from pairs of bytes; `position` is that of the next byte. -/
def decodeFrom (order : ByteOrder) (position : Nat) (units : List Nat) :
    List UInt8 → Except DecodeError (List Char)
  | [] => .ok (decodeUnits [] none units.reverse)
  | [b] => .error ⟨"utf-16-" ++ order.suffix, [b], position, .truncated⟩
  | a :: b :: rest => decodeFrom order (position + 2) (order.value [a, b] :: units) rest

end Utf16

namespace Utf32

/-- Reads on at `position` after the characters `read` (last first). -/
def decodeFrom (order : ByteOrder) (position : Nat) (read : List Char) :
    List UInt8 → Except DecodeError (List Char)
  | a :: b :: c :: d :: rest =>
    let n := order.value [a, b, c, d]
    if n < 0x110000 then decodeFrom order (position + 4) (characterAt n :: read) rest
    else .error ⟨"utf-32-" ++ order.suffix, [a, b, c, d], position, .beyondUnicode⟩
  | [] => .ok read.reverse
  | rest => .error ⟨"utf-32-" ++ order.suffix, rest, position, .truncated⟩

end Utf32

end Attest.Text
