import Attest.Codec.Base58
import Attest.Codec.Base64Url
import Attest.Crypto.Ed25519
import Attest.Crypto.P256
import Attest.Value.Basic
import Attest.Value.Fault

/-! Keys of the two kinds that credentials are signed with, and what can go wrong when a key is read
or written. -/

namespace Attest

/-- A key that signatures are checked with. -/
inductive PublicKey where
  | p256 (key : Crypto.P256.PublicKey)
  | ed25519 (key : Crypto.Ed25519.PublicKey)
  deriving DecidableEq, Repr

/-- A key that signs. -/
inductive PrivateKey where
  | p256 (key : Crypto.P256.PrivateKey)
  | ed25519 (key : Crypto.Ed25519.PrivateKey)
  deriving DecidableEq, Repr

def PrivateKey.publicKey : PrivateKey → PublicKey
  | p256 key => .p256 key.publicKey
  | ed25519 key => .ed25519 key.publicKey

/-- What stands where a key should: a key, or a value of some other type. -/
inductive Held (κ : Type) where
  | key (k : κ)
  | other (v : Value)

/-- Why there is no key, or no text for it. -/
inductive KeyError where
  | unsupportedType (type curve : String)
  | notKey (type : String)
  | notOnCurve
  | invalid
  | publicLength
  | privateLength
  | tooBig
  | emptyPoint
  | pointForm
  | base64 (e : Base64Url.LenientError)
  | base58 (e : Base58.DecodeError)
  | notDidKey (did : String)
  | multibase (first : String)
  | multicodec (first : String)
  | fault (f : Value.Fault)
  deriving DecidableEq, Repr

namespace KeyError

def message : KeyError → String
  | unsupportedType type curve => "Unsupported key type: " ++ type ++ "/" ++ curve
  | notKey type => "Unsupported key type: <class '" ++ type ++ "'>"
  | notOnCurve => "Invalid EC key. Point is not on the curve specified."
  | invalid => "Invalid EC key."
  | publicLength => "An Ed25519 public key is 32 bytes long"
  | privateLength => "An Ed25519 private key is 32 bytes long"
  | tooBig => "int too big to convert"
  | emptyPoint => "data must not be an empty byte string"
  | pointForm => "Unsupported elliptic curve point type"
  | base64 e => e.message
  | base58 e => e.message
  | notDidKey did => "Not a did:key identifier: " ++ did
  | multibase first => "Unsupported multibase encoding: " ++ Text.quote first
  | multicodec first => "Unsupported multicodec prefix: " ++ first
  | fault f => f.message

end KeyError

def Held.get {κ : Type} : Held κ → Except KeyError κ
  | key k => .ok k
  | other v => .error (.notKey v.qualifiedTypeName)

end Attest
