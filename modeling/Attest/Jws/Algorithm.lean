import Attest.Key.Jwk

/-! The signature algorithms that tokens name, and the keys that each of them works with. -/

namespace Attest.Jws

/-- A signature algorithm with a registered name. -/
inductive Algorithm where
  | none
  | hs256
  | hs384
  | hs512
  | rs256
  | rs384
  | rs512
  | es256
  | es384
  | es512
  | ps256
  | ps384
  | ps512
  | edDsa
  | es256k
  | ed25519
  | ed448
  deriving DecidableEq, Repr

namespace Algorithm

def all : List Algorithm :=
  [none, hs256, hs384, hs512, rs256, rs384, rs512, es256, es384, es512, ps256, ps384, ps512, edDsa,
    es256k, ed25519, ed448]

def name : Algorithm → String
  | none => "none"
  | hs256 => "HS256"
  | hs384 => "HS384"
  | hs512 => "HS512"
  | rs256 => "RS256"
  | rs384 => "RS384"
  | rs512 => "RS512"
  | es256 => "ES256"
  | es384 => "ES384"
  | es512 => "ES512"
  | ps256 => "PS256"
  | ps384 => "PS384"
  | ps512 => "PS512"
  | edDsa => "EdDSA"
  | es256k => "ES256K"
  | ed25519 => "Ed25519"
  | ed448 => "Ed448"

/-- The kind of key that an algorithm asks for, if it needs a key. -/
def keyType? : Algorithm → Option String
  | none => Option.none
  | hs256 | hs384 | hs512 => some "oct"
  | rs256 | rs384 | rs512 | ps256 | ps384 | ps512 => some "RSA"
  | es256 | es384 | es512 | es256k => some "EC"
  | edDsa | ed25519 | ed448 => some "OKP"

/-- The curve that an algorithm asks for, if it is bound to one. -/
def curve? : Algorithm → Option String
  | es256 => some "P-256"
  | es384 => some "P-384"
  | es512 => some "P-521"
  | es256k => some "secp256k1"
  | ed25519 => some "Ed25519"
  | ed448 => some "Ed448"
  | _ => Option.none

/-- The algorithm may be used where no algorithm is asked for. -/
def isRecommended : Algorithm → Bool
  | hs256 | rs256 | es256 => true
  | _ => false

theorem mem_all (a : Algorithm) : a ∈ all := by
  cases a <;> decide

end Algorithm

/-- The algorithms that are available. -/
abbrev Registry := List Algorithm

namespace Registry

def find? (r : Registry) (name : String) : Option Algorithm := List.find? (fun a => a.name == name) r

def contains (r : Registry) (name : String) : Bool := (find? r name).isSome

/-- All algorithms but those of the given names. -/
def without (names : List String) : Registry :=
  Algorithm.all.filter fun a => !names.contains a.name

end Registry

end Attest.Jws

namespace Attest

/-- The name of the algorithm that a private key signs with unless another one is asked for. -/
def PrivateKey.algorithm : PrivateKey → String
  | p256 _ => "ES256"
  | ed25519 _ => "EdDSA"

/-- The names of the available algorithms that signatures under a key may have been made with. -/
def PublicKey.algorithms (r : Jws.Registry) : PublicKey → List String
  -- The one of P-256 is named whether it is available or not.
  | p256 _ => ["ES256"]
  | ed25519 _ => ["EdDSA", "Ed25519"].filter (Jws.Registry.contains r)

/-- The signature of a message, for the signatures that keys of P-256 give. -/
def PrivateKey.sign (ecdsa : Crypto.P256.Signatures) : PrivateKey → Bytes → Bytes
  | p256 key, message => ecdsa key message
  | ed25519 key, message => Crypto.Ed25519.sign key message

def PublicKey.verify : PublicKey → (message signature : Bytes) → Bool
  | p256 key, message, signature => Crypto.P256.verify key message signature
  | ed25519 key, message, signature => Crypto.Ed25519.verify key message signature

end Attest
