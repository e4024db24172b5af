import Attest.Key.Basic
import Attest.Text.Hex
import Attest.Text.Split

/-! Identifiers that are keys: after `did:key:z` stand, in base 58, two bytes that tell the kind of
key and the bytes of the key itself. -/

namespace Attest.DidKey

/-- What every identifier begins with. -/
def scheme : String := "did:key:"

/-- The part of an identifier before a number sign. -/
def withoutFragment (did : String) : String := String.ofList (did.toList.takeWhile (· != '#'))

/-- The bytes that tell the kind of a key. -/
def kindBytes : PublicKey → Bytes
  | .p256 _ => [0x80, 0x24]
  | .ed25519 _ => [0xed, 0x01]

def keyBytes : PublicKey → Bytes
  | .p256 key => key.compressed
  | .ed25519 key => key.bytes

/-- A key with its kind, in base 58 after the letter of that base. -/
def multibase (key : PublicKey) : String :=
  String.ofList ('z' :: Base58.encode (kindBytes key ++ keyBytes key))

/-- The identifier of a key. -/
def encode (key : PublicKey) : String := scheme ++ multibase key

/-- The key that bytes stand for, of which the first two tell its kind. -/
def keyOfBytes : Bytes → Except KeyError PublicKey
  | 0xed :: 0x01 :: rest =>
    match Crypto.Ed25519.PublicKey.of? rest with
    | some k => .ok (.ed25519 k)
    | none => .error .publicLength
  | 0x80 :: 0x24 :: rest =>
    match Crypto.P256.PublicKey.ofBytes rest with
    | .ok k => .ok (.p256 k)
    | .error .empty => .error .emptyPoint
    | .error .form => .error .pointForm
    | .error .point => .error .invalid
  | bytes => .error (.multicodec (String.ofList (Text.hexBytes (bytes.take 2))))

/-- The key of what follows the scheme, up to a number sign. -/
def ofMultibase (cs : List Char) : Except KeyError PublicKey :=
  match cs with
  | 'z' :: rest =>
    match Base58.decode rest with
    | .ok bytes => keyOfBytes bytes
    | .error e => .error (.base58 e)
  | other => .error (.multibase (String.ofList (other.take 1)))

/-- The key that an identifier stands for; a number sign and what follows it do not count. -/
def decode (did : String) : Except KeyError PublicKey :=
  match Text.after? scheme.toList did.toList with
  | some rest => ofMultibase (rest.takeWhile (· != '#'))
  | none => .error (.notDidKey did)

/-- The identifier of the only verification method of an identifier: what follows its last colon is
repeated after a number sign. -/
def verificationMethod (did : String) : String :=
  let base := withoutFragment did
  base ++ "#" ++ String.ofList (base.toList.reverse.takeWhile (· != ':')).reverse

end Attest.DidKey
