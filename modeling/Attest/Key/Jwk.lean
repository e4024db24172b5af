import Attest.Key.Basic
import Attest.Value.Display
import Attest.Value.Object

/-! Keys as JSON objects: the kind of key, the curve, and its numbers in the encoding by 64
characters. Numbers are written with their full width and read with any width. A library for
signatures reads its own keys from the objects that are written. -/

namespace Attest

namespace Base64Url

def text (bytes : Bytes) : String := String.ofList (encode bytes)

/-- The bytes that a value stands for, which has to be a text. -/
def ofValue : Value → Except KeyError Bytes
  | .text s => (decodeLenient s.toList).mapError .base64
  | .list items => .error (.fault (.notBytesLike (Value.list items).operandTypeName))
  | .object members => .error (.fault (.notAdded "+=" (Value.object members).operandTypeName "str"))
  | v => .error (.fault (.noLength v.operandTypeName))

end Base64Url

namespace Jwk

/-- The kinds of keys that can be told from the members `kty` and `crv`. -/
inductive Curve where
  | p256
  | ed25519
  deriving DecidableEq, Repr

/-- The value of `kty` for keys of the curve. -/
def Curve.keyType : Curve → String
  | p256 => "EC"
  | ed25519 => "OKP"

/-- The value of `crv` for keys of the curve. -/
def Curve.name : Curve → String
  | p256 => "P-256"
  | ed25519 => "Ed25519"

/-- A member that gives a number. -/
def number (o : Object) (name : String) : Except KeyError Bytes :=
  match Object.get? o name with
  | none => .error (.fault (.missingMember name))
  | some v => Base64Url.ofValue v

def curve (o : Object) : Except KeyError Curve :=
  match Object.getD o "kty", Object.getD o "crv" with
  | .text "EC", .text "P-256" => .ok .p256
  | .text "OKP", .text "Ed25519" => .ok .ed25519
  | type, curve => .error (.unsupportedType type.plain curve.plain)

/-- The members of an object that should be a key. -/
def members : Value → Except KeyError Object
  | .object o => .ok o
  | v => .error (.fault (.noAttribute v.operandTypeName "get"))

/-- The point with the given coordinates, which may exceed the prime of the curve. -/
def point (x y : Bytes) : Except KeyError Crypto.P256.PublicKey :=
  match Crypto.P256.PublicKey.of? (x.toNat % Crypto.P256.prime) (y.toNat % Crypto.P256.prime) with
  | some k => .ok k
  | none => .error .notOnCurve

end Jwk

namespace PublicKey

def curve : PublicKey → Jwk.Curve
  | p256 _ => .p256
  | ed25519 _ => .ed25519

def toJwk : PublicKey → Object
  | p256 key =>
    [("kty", .text "EC"), ("crv", .text "P-256"),
      ("x", .text (Base64Url.text (Bytes.ofNat 32 key.x))),
      ("y", .text (Base64Url.text (Bytes.ofNat 32 key.y)))]
  | ed25519 key =>
    [("kty", .text "OKP"), ("crv", .text "Ed25519"), ("x", .text (Base64Url.text key.bytes))]

def ofJwk (v : Value) : Except KeyError PublicKey := do
  let o ← Jwk.members v
  match ← Jwk.curve o with
  | .p256 => return .p256 (← Jwk.point (← Jwk.number o "x") (← Jwk.number o "y"))
  | .ed25519 =>
    match Crypto.Ed25519.PublicKey.of? (← Jwk.number o "x") with
    | some k => return .ed25519 k
    | none => throw .publicLength

end PublicKey

namespace PrivateKey

def curve (k : PrivateKey) : Jwk.Curve := k.publicKey.curve

/-- A key as a JSON object, with its secret number, which must have its usual width. -/
def toJwk : PrivateKey → Except KeyError Object
  | p256 key =>
    if key.scalar < 2 ^ 256 then
      .ok ((PublicKey.p256 key.publicKey).toJwk ++
        [("d", .text (Base64Url.text (Bytes.ofNat 32 key.scalar)))])
    else .error .tooBig
  | ed25519 key =>
    .ok ((PublicKey.ed25519 key.publicKey).toJwk ++ [("d", .text (Base64Url.text key.seed))])

/-- The key that a JSON object stands for. -/
def ofJwk (v : Value) : Except KeyError PrivateKey := do
  let o ← Jwk.members v
  match ← Jwk.curve o with
  | .p256 =>
    let x ← Jwk.number o "x"
    let y ← Jwk.number o "y"
    let scalar ← Jwk.number o "d"
    let publicKey ← Jwk.point x y
    match Crypto.P256.PrivateKey.of? scalar.toNat publicKey with
    | some k => return .p256 k
    | none => throw .invalid
  | .ed25519 =>
    -- The public number is not looked at.
    match Crypto.Ed25519.PrivateKey.of? (← Jwk.number o "d") with
    | some k => return .ed25519 k
    | none => throw .privateLength

end PrivateKey

/-- A library that reads the keys of a curve from JSON objects, and gives the object of a key. -/
structure KeyLibrary where
  Key : Type
  read : Jwk.Curve → Object → Except KeyError Key
  write : Key → Object

namespace KeyLibrary

variable (l : KeyLibrary)

/-- The key of the library for a private key that is held. -/
def importPrivate (held : Held PrivateKey) : Except KeyError l.Key := do
  let key ← held.get
  l.read key.curve (← key.toJwk)

/-- The key of the library for a public key that is held. -/
def importPublic (held : Held PublicKey) : Except KeyError l.Key := do
  let key ← held.get
  l.read key.curve key.toJwk

end KeyLibrary

end Attest
