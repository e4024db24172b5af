import Attest.Error
import Attest.Jws.Compact
import Attest.Text.Utf8

/-! Signers: those who make tokens on behalf of an identity. -/

namespace Attest

/-- Someone who signs claim sets. -/
structure Signer where
  id : Value
  kid : Value
  algorithm : Value
  sign : (claims headers : Value) → Except Error String

namespace Signer

/-- The name of the algorithm that a key signs with, unless another one is asked for. -/
def algorithmOf (key : Held PrivateKey) (algorithm : Value) : Except KeyError Value :=
  if algorithm.isNull then key.get.map fun k => .text k.algorithm else .ok algorithm

/-- The token of a claim set, signed with a key by the algorithm that the header gives. -/
def signWith (r : Jws.Registry) (ecdsa : Crypto.P256.Signatures) (key : Held PrivateKey)
    (claims headers : Value) : Except Error String := do
  let _ ← (headers.member "alg").mapError .ofFault
  let payload ← (Json.write .spaced claims).mapError fun e => .basic (.write e)
  let key ← key.get.mapError .ofKey
  -- The key is written for the library, which fails if its secret number is too large.
  let _ ← key.toJwk.mapError .ofKey
  let headers ← (headers.asObject "get").mapError .ofFault
  (Jws.sign r ecdsa headers (Text.Utf8.encode payload.toList) key).mapError fun e => .basic (.jws e)

def ofKey (r : Jws.Registry) (ecdsa : Crypto.P256.Signatures) (id : Value) (key : Held PrivateKey)
    (kid algorithm : Value) : Except KeyError Signer := do
  return ⟨id, kid, ← algorithmOf key algorithm, signWith r ecdsa key⟩

def ofJwk (r : Jws.Registry) (ecdsa : Crypto.P256.Signatures) (id jwk kid : Value) :
    Except KeyError Signer := do
  let key ← PrivateKey.ofJwk jwk
  ofKey r ecdsa id (.key key) kid (.text key.algorithm)

/-- A signer who refuses everything with the same words. -/
def refusing (id kid algorithm : Value) (words : String) : Signer :=
  ⟨id, kid, algorithm, fun _ _ => .error (.stated .external words)⟩

/-- The name by which the registry knows a signer's algorithm. -/
def registeredAlgorithm (r : Jws.Registry) (label : Value) : Except Value.Fault Value :=
  if label.isHashable then
    match label with
    -- The name of the curve is replaced if it is no algorithm there.
    | .text "Ed25519" => .ok (.text (if r.contains "Ed25519" then "Ed25519" else "EdDSA"))
    | v => .ok v
  else .error (.notHashable label.operandTypeName)

/-- The header of the tokens of a signer. -/
def header (r : Jws.Registry) (s : Signer) : Except Error Object := do
  let algorithm ← (registeredAlgorithm r s.algorithm).mapError .ofFault
  let kid : Object := if s.kid.isTruthy then [("kid", s.kid)] else []
  return [("alg", algorithm), ("typ", .text "JWT")] ++ kid

end Signer

end Attest
