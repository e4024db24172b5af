import Attest.Proofs.Crypto.Point
import Attest.Proofs.Token.Parsed
import Attest.Proofs.Token.Signing

/-! Tokens are read back: what a signer signed, header and claims, is what is read from the token, and
every value in it is of the same type and every member at the same place as before. The identifier of
the key is any text, which is any sequence of Unicode scalar values. -/

namespace Attest

namespace Jws

theorem check_of_checkHeader {header : Object} (h : checkHeader header = .ok ()) :
    ∀ p ∈ parameters, p.check header = .ok () := by
  unfold checkHeader at h
  obtain ⟨_, -, h⟩ := Except.bind_eq_ok_iff.mp h
  obtain ⟨_, hall, -⟩ := Except.bind_eq_ok_iff.mp h
  exact Except.forM_eq_ok_iff.mp hall

theorem kid_of_checkHeader {header : Object} {v : Value} (h : checkHeader header = .ok ())
    (hkid : Object.get? header "kid" = some v) : ∃ s, v = .text s := by
  have hcheck := check_of_checkHeader h ⟨"kid", .text, false⟩ (by simp [Jws.parameters])
  unfold Parameter.check at hcheck
  rw [hkid] at hcheck
  cases v with
  | text s => exact ⟨s, rfl⟩
  | _ => cases hcheck

end Jws

namespace Signer

/-- The header of a signer who signed with it is well formed: its values are texts. -/
theorem wellFormed_header {r : Jws.Registry} {signer : Signer} {header : Object} {a : Jws.Algorithm}
    (h : signer.header r = .ok header) (hchecked : Jws.checkHeader header = .ok ())
    (hnamed : Object.get? header "alg" = some (.text a.name)) : (Value.object header).WellFormed := by
  obtain ⟨algorithm, -, rfl⟩ := header_eq_ok h
  obtain rfl : algorithm = .text a.name := Option.some.inj hnamed
  split at hchecked
  · rename_i hkid
    obtain ⟨s, hs⟩ := Jws.kid_of_checkHeader hchecked rfl
    rw [if_pos hkid, hs]
    simp [Object.names]
  · rename_i hkid
    rw [if_neg hkid]
    simp [Object.names]

/-- A token is read as the header and the claims that it was made for. -/
theorem Signs.readFrom {r : Jws.Registry} {ecdsa : Crypto.P256.Signatures} {signer : Signer}
    {key : PrivateKey} {a : Jws.Algorithm} {claims header : Object} {token : String}
    (h : Signs r ecdsa key a claims header token)
    (hheader : signer.header r = .ok header) (hclaims : (Value.object claims).WellFormed)
    (haudience : Claims.hasValidAudience claims = true)
    (hlimits : Jws.WithinLimits (Text.Utf8.encode token.toList)) :
    ParsedToken.ReadFrom token (h.issued.parts) ⟨token, header, claims⟩ where
  raw := rfl
  ascii := h.issued.isAscii
  extracted := h.issued.extracted
    (wellFormed_header hheader h.issued.checked h.issued.named) (isRawPayload_header hheader) hlimits
  claims := Json.readBytes_object Json.Style.readable_spaced hclaims h.writable
  audience := haudience
  headers := rfl

theorem signs_of_sign {r : Jws.Registry} {ecdsa : Crypto.P256.Signatures} {id kid algorithm : Value}
    {key : Held PrivateKey} {signer : Signer} {header claims : Object} {token : String}
    (hsigner : ofKey r ecdsa id key kid algorithm = .ok signer)
    (hheader : signer.header r = .ok header)
    (hsign : signer.sign (.object claims) (.object header) = .ok token) :
    ∃ k a, key = .key k ∧ Signs r ecdsa k a claims header token := by
  obtain ⟨_, -, hsigner⟩ := Except.bind_eq_ok_iff.mp hsigner
  obtain rfl := Except.ok.inj hsigner
  exact signs_of_signWith (isRawPayload_header hheader) hsign

theorem length_zeroSeed : (List.replicate 32 (0 : UInt8)).length = 32 := List.length_replicate

/-- The secret key whose seed is zero. -/
def zeroPrivateKey : PrivateKey := .ed25519 ⟨List.replicate 32 0, length_zeroSeed⟩

/-- The signer with this key, whose identifier is not in ASCII. -/
def zeroSigner : Signer :=
  ⟨.text "a", .text "é", .text "EdDSA", signWith [.edDsa] (.ofNonce 2) (.key zeroPrivateKey)⟩

/-- The signer with the secret number 1, who draws the nonce 2. -/
def oneSigner : Signer :=
  ⟨.text "a", .text "é", .text "ES256", signWith [.es256] (.ofNonce 2) (.key (.p256 .one))⟩

end Signer

namespace ParsedToken

/-- The header of a token that nobody signed. -/
def unsignedHeader : Object := [("alg", .text "none")]

def unsignedBytes (claims : Object) : Bytes :=
  Jws.signedText unsignedHeader (Text.Utf8.encode (Json.chars .spaced (.object claims))) ++
    [Jws.dot]

/-- The token of some claims that nobody signed. -/
def unsigned (claims : Object) : String :=
  String.ofList (Base64Url.encode (Jws.headerBytes unsignedHeader) ++
    '.' :: Base64Url.encode (Text.Utf8.encode (Json.chars .spaced (.object claims))) ++ ['.'])

theorem issued_unsigned (claims : Object) (ecdsa : Crypto.P256.Signatures) (key : PrivateKey) :
    Jws.Issued [.none] ecdsa unsignedHeader
      (Text.Utf8.encode (Json.chars .spaced (.object claims))) key .none (unsigned claims) where
  checked := rfl
  named := rfl
  chosen := rfl
  fits := rfl
  writable := rfl
  chars := String.toList_ofList

/-- A token that nobody signed is read as its claims. -/
theorem ofText_unsigned {claims : Object} (hclaims : (Value.object claims).WellFormed)
    (hwritable : Json.Writable (.object claims)) (haudience : Claims.hasValidAudience claims = true)
    (hlimits : Jws.WithinLimits (unsignedBytes claims)) :
    ofText (unsigned claims) = .ok ⟨unsigned claims, unsignedHeader, claims⟩ := by
  have hissued := issued_unsigned claims (.ofNonce 2) Signer.zeroPrivateKey
  have hbytes : Text.Utf8.encode (unsigned claims).toList = unsignedBytes claims := hissued.bytes
  refine ofText_eq_ok_iff.mpr ⟨hissued.parts,
    { raw := rfl
      ascii := hissued.isAscii
      extracted := hissued.extracted (by decide) rfl (hbytes ▸ hlimits)
      claims := Json.readBytes_object Json.Style.readable_spaced hclaims hwritable
      audience := haudience
      headers := rfl }⟩

end ParsedToken

end Attest
