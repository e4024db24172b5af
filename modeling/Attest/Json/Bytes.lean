import Attest.Bytes
import Attest.Json.Reader
import Attest.Text.Utf8

/-! JSON as bytes. The encoding is found out from a byte order mark or else from the zeros among the
first bytes, since JSON text begins with a character of ASCII. -/

namespace Attest.Json

/-- An encoding of Unicode, with the number of bytes of the byte order mark. -/
inductive Encoding where
  | utf8 (mark : Nat)
  | utf16 (order : Text.ByteOrder) (mark : Nat)
  | utf32 (order : Text.ByteOrder) (mark : Nat)
  deriving DecidableEq, Repr

/-- The encoding that the zeros among the first bytes point to. -/
def Encoding.ofZeros : Bytes → Encoding
  | [a, b] =>
    if a = 0 then .utf16 .bigEndian 0
    else if b = 0 then .utf16 .littleEndian 0
    else .utf8 0
  | a :: b :: c :: d :: _ =>
    if a = 0 then if b = 0 then .utf32 .bigEndian 0 else .utf16 .bigEndian 0
    else if b = 0 then
      if c = 0 && d = 0 then .utf32 .littleEndian 0 else .utf16 .littleEndian 0
    else .utf8 0
  | _ => .utf8 0

def Encoding.detect : Bytes → Encoding
  | 0x00 :: 0x00 :: 0xfe :: 0xff :: _ => .utf32 .bigEndian 4
  | 0xff :: 0xfe :: 0x00 :: 0x00 :: _ => .utf32 .littleEndian 4
  | 0xfe :: 0xff :: _ => .utf16 .bigEndian 2
  | 0xff :: 0xfe :: _ => .utf16 .littleEndian 2
  | 0xef :: 0xbb :: 0xbf :: _ => .utf8 3
  | bytes => ofZeros bytes

/-- The text of bytes in this encoding, without the byte order mark. -/
def Encoding.decode (bytes : Bytes) : Encoding → Except Text.DecodeError (List Char)
  | utf8 mark => Text.Utf8.decode (bytes.drop mark)
  | utf16 order mark => Text.Utf16.decodeFrom order mark [] (bytes.drop mark)
  | utf32 order mark => Text.Utf32.decodeFrom order mark [] (bytes.drop mark)

/-- The value that bytes stand for, whole numbers having at most `limit` digits. -/
def readBytes (limit : Nat) (bytes : Bytes) : Except ReadError Value :=
  match (Encoding.detect bytes).decode bytes with
  | .error e => .error (.encoding e)
  | .ok cs => readText limit cs

end Attest.Json
