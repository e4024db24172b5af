import Attest.Error
import Attest.Jws.Compact
import Attest.Text.Utf8

/-! Verifiers: those who check the signatures of tokens for an identity. -/

namespace Attest

/-- Someone who checks signatures. The identifiers are texts or null. -/
structure Verifier where
  id : Value
  kid : Value
  verify : (token : Value) → Except Error Unit

namespace Verifier

/-- The byte that an item of a list stands for. -/
def byte (v : Value) : Except Value.Fault UInt8 :=
  match v with
  | .bool b => .ok (if b then 1 else 0)
  | .int i => if 0 ≤ i && i < 256 then .ok (UInt8.ofNat i.toNat) else .error .notByte
  | v => .error (.notWhole v.operandTypeName)

/-- The bytes that a token of any type stands for: those of its text, or one for each item. -/
def tokenBytes (token : Value) : Except Value.Fault Bytes :=
  match token with
  | .text s => .ok (Text.Utf8.encode s.toList)
  | .bool _ | .int _ | .float _ => .ok (Text.Utf8.encode token.plain.toList)
  | .list items => items.mapM byte
  | .object members => (members.map fun m => Value.text m.1).mapM byte
  | v => .error (.noBytes v.operandTypeName)

/-- Checks the signature of a token under a key. -/
def check (r : Jws.Registry) (key : PublicKey) (token : Value) : Except BasicError Unit := do
  let bytes ← (tokenBytes token).mapError .fault
  let compact ← (Jws.extract bytes).mapError .jws
  (Jws.verify r (key.algorithms r) key compact).mapError .jws

/-- Checks the signature of a token under a key that is held. -/
def verifyWith (r : Jws.Registry) (key : Held PublicKey) (token : Value) : Except Error Unit := do
  let key ← key.get.mapError .ofKey
  (check r key token).mapError .signature

def ofKey (r : Jws.Registry) (id : Value) (key : Held PublicKey) (kid : Value) : Verifier :=
  ⟨id, kid, verifyWith r key⟩

def ofJwk (r : Jws.Registry) (id jwk kid : Value) : Except KeyError Verifier := do
  return ofKey r id (.key (← PublicKey.ofJwk jwk)) kid

/-- A verifier who accepts everything. -/
def accepting (id kid : Value) : Verifier := ⟨id, kid, fun _ => .ok ()⟩

/-- A verifier who refuses everything with the same words. -/
def refusing (id kid : Value) (words : String) : Verifier :=
  ⟨id, kid, fun _ => .error (.stated .external words)⟩

end Verifier

end Attest
