import Attest.Bytes
import Attest.Codec.Base64Url
import Attest.Json.Bytes
import Attest.Json.Writer
import Attest.Jws.Algorithm
import Attest.Jws.Header
import Attest.Text.Split
import Attest.Text.Utf8

/-! Signed tokens in compact form: a header, a payload and a signature between dots, each in the
encoding by 64 characters. A header may ask for a payload that stands in the token as it is. -/

namespace Attest.Jws

/-- The bytes of ASCII characters. -/
def bytesOfChars (cs : List Char) : Bytes := cs.map fun c => UInt8.ofNat c.toNat

/-- The characters that bytes are when each is taken for one. -/
def charsOfBytes (bytes : Bytes) : List Char := bytes.map fun b => Char.ofNat b.toNat

def dot : UInt8 := 0x2e

/-- A token taken apart. -/
structure Compact where
  headerSegment : Bytes
  payloadSegment : Bytes
  signatureSegment : Bytes
  header : Value
  payload : Bytes

namespace Compact

/-- What the signature is made of. -/
def signedPart (c : Compact) : Bytes := c.headerSegment ++ dot :: c.payloadSegment

end Compact

def checkSize (part : Part) (bytes : Bytes) : Except Error Unit :=
  if part.limit < bytes.length then .error (.tooLarge part) else .ok ()

def decodeSegment? (segment : Bytes) : Option Bytes := Base64Url.decode? (charsOfBytes segment)

/-- The JSON value that the first segment of a token stands for. -/
def readHeader (segment : Bytes) : Except Error Value :=
  match decodeSegment? segment with
  | none => .error (.unreadable .header)
  | some bytes =>
    match Json.readBytes Json.digitLimit bytes with
    | .ok v => .ok v
    | .error _ => .error (.unreadable .header)

def criticalB64 (o : Object) : Bool :=
  match Object.get? o "crit" with
  | some (.list items) => items.any fun v => v.text? == some "b64"
  | _ => false

/-- The payload stands in the token as it is, since the header says so. -/
def isRawPayload (header : Value) : Except Error Bool :=
  match header.hasName "b64" with
  | .ok true =>
    match header.member "b64" with
    | .error f => .error (.fault f)
    | .ok (.bool true) => .ok false
    | .ok _ =>
      match header with
      | .object o => if criticalB64 o then .ok true else .error (.missingCritical "b64")
      | _ => .error (.missingCritical "b64")
  | _ => .ok false

/-- The header, the payload and the segments of a token. -/
def extract (token : Bytes) : Except Error Compact := do
  checkSize .token token
  match Text.split dot token with
  | [headerSegment, payloadSegment, signatureSegment] =>
    checkSize .header headerSegment
    checkSize .signature signatureSegment
    checkSize .payload payloadSegment
    let header ← readHeader headerSegment
    match header.hasName "alg" with
    | .error _ => throw (.unreadable .header)
    | .ok false => throw .noAlgorithm
    | .ok true =>
      if ← isRawPayload header then
        return ⟨headerSegment, payloadSegment, signatureSegment, header, payloadSegment⟩
      else
        match decodeSegment? payloadSegment with
        | some payload =>
          return ⟨headerSegment, payloadSegment, signatureSegment, header, payload⟩
        | none => throw (.unreadable .payload)
  | _ => throw (.unreadable .token)

/-- The algorithm of a name, if it is available and among the allowed ones. -/
def chooseAlgorithm (r : Registry) (allowed : List String) (name : String) :
    Except Error Algorithm :=
  match r.find? name with
  | none => .error (.algorithm name .unknown)
  | some a =>
    -- Where no name is allowed, those of the recommended algorithms are.
    if allowed.isEmpty then
      if a.isRecommended then .ok a else .error (.algorithm name .notRecommended)
    else if allowed.contains name then .ok a
    else .error (.algorithm name .notAllowed)

def checkKey (a : Algorithm) (curve : Jwk.Curve) : Except Error Unit := do
  if a.keyType?.any (· != curve.keyType) then throw (.keyType a.name (a.keyType?.getD ""))
  if a.curve?.any (· != curve.name) then throw (.keyCurve a.name (a.curve?.getD ""))

def algorithmName (header : Object) : Except Error String :=
  match Object.get? header "alg" with
  | some (.text name) => .ok name
  | _ => .error (.headerValue "alg" .text)

/-- Checks the signature of a token. -/
def verify (r : Registry) (allowed : List String) (key : PublicKey) (c : Compact) :
    Except Error Unit :=
  match c.header with
  | .object header => do
    checkHeader header
    let a ← chooseAlgorithm r allowed (← algorithmName header)
    checkKey a key.curve
    match decodeSegment? c.signatureSegment with
    | some signature =>
      if a != .none && key.verify c.signedPart signature then return () else throw .badSignature
    | none => throw .badSignature
  | v => .error (.fault (.notIndex v.operandTypeName "str"))

/-- A character that may stand in the payload of a token as it is. -/
def isPlain (b : UInt8) : Bool :=
  (0x30 ≤ b && b ≤ 0x39) || (0x41 ≤ b && b ≤ 0x5a) || (0x61 ≤ b && b ≤ 0x7a) || b == 0x2d ||
    b == 0x5f || b == 0x7e

/-- The token of a header and a payload, signed with a key. -/
def sign (r : Registry) (ecdsa : Crypto.P256.Signatures) (header : Object) (payload : Bytes)
    (key : PrivateKey) : Except Error String := do
  checkHeader header
  let raw ← isRawPayload (.object header)
  let name ← algorithmName header
  let a ← chooseAlgorithm r [name] name
  checkKey a key.curve
  let headerText ← (Json.write .compactAscii (.object header)).mapError .write
  let headerSegment := Base64Url.encode (bytesOfChars headerText.toList)
  let payloadSegment := if raw then payload else bytesOfChars (Base64Url.encode payload)
  let signedPart := bytesOfChars headerSegment ++ dot :: payloadSegment
  let signature := if a == .none then [] else key.sign ecdsa signedPart
  -- A payload that is not encoded is left out of the token if it is not plain.
  let shown :=
    if raw && (payload.isEmpty || !payload.all isPlain) then []
    else charsOfBytes payloadSegment
  return String.ofList (headerSegment ++ '.' :: shown ++ '.' :: Base64Url.encode signature)

end Attest.Jws
