import Attest.Proofs.Codec.Base64Url
import Attest.Proofs.Json.Documents
import Attest.Proofs.Token.Compact
import Attest.Proofs.Token.Signature
import Attest.Token.Signer

/-! How tokens are made: what a signer has checked when it gives one, which bytes the token has, and
that they are taken apart into the header and the payload that were signed, if they are within the
limits of size. -/

namespace Attest

namespace Jws

theorem bytesOfChars_of_isAscii {cs : List Char} (h : Text.IsAscii cs) :
    bytesOfChars cs = Text.Utf8.encode cs := (Text.Utf8.encode_of_ascii h).symm

theorem charsOfBytes_bytesOfChars {cs : List Char} (h : Text.IsAscii cs) :
    charsOfBytes (bytesOfChars cs) = cs := by
  induction cs with
  | nil => rfl
  | cons c rest ih =>
    have hc : (UInt8.ofNat c.toNat).toNat = c.toNat := by
      rw [UInt8.toNat_ofNat', Nat.mod_eq_of_lt (Nat.lt_trans (h c (by simp)) (by decide))]
    show Char.ofNat (UInt8.ofNat c.toNat).toNat :: charsOfBytes (bytesOfChars rest) = _
    rw [hc, Char.ofNat_toNat, ih fun d hd => h d (by simp [hd])]

def segment (bytes : Bytes) : Bytes := bytesOfChars (Base64Url.encode bytes)

theorem decodeSegment?_segment (bytes : Bytes) : decodeSegment? (segment bytes) = some bytes := by
  rw [decodeSegment?, segment, charsOfBytes_bytesOfChars (Base64Url.isAscii_encode bytes),
    Base64Url.decode?_encode]

theorem dot_not_mem_segment (bytes : Bytes) : dot ∉ segment bytes := by
  intro h
  obtain ⟨c, hc, hdot⟩ := List.mem_map.mp h
  refine Base64Url.dot_not_mem_encode bytes ?_
  have hascii := Base64Url.isAscii_encode bytes c hc
  have hnat : c.toNat = '.'.toNat := by
    have := congrArg UInt8.toNat hdot
    rw [UInt8.toNat_ofNat', Nat.mod_eq_of_lt (Nat.lt_trans hascii (by decide))] at this
    exact this
  rwa [← Char.toNat_inj.mp hnat]

def headerBytes (header : Object) : Bytes :=
  Text.Utf8.encode (Json.chars .compactAscii (.object header))

def signedText (header : Object) (payload : Bytes) : Bytes :=
  segment (headerBytes header) ++ dot :: segment payload

/-- A token taken apart that was made of a header, a payload and a signature. -/
def Compact.ofParts (header : Object) (payload signature : Bytes) : Compact :=
  ⟨segment (headerBytes header), segment payload, segment signature, .object header, payload⟩

/-- The signature of what is signed, which is empty where the algorithm is to sign nothing. -/
def signatureBytes (ecdsa : Crypto.P256.Signatures) (a : Algorithm) (key : PrivateKey)
    (text : Bytes) : Bytes :=
  if a == .none then [] else key.sign ecdsa text

/-- A token was made for a header and a payload: the header passes the checks and names an algorithm
that may be used with the key, and the token is its segments with dots in between. -/
structure Issued (r : Registry) (ecdsa : Crypto.P256.Signatures) (header : Object) (payload : Bytes)
    (key : PrivateKey) (a : Algorithm) (token : String) : Prop where
  checked : checkHeader header = .ok ()
  named : Object.get? header "alg" = some (.text a.name)
  chosen : chooseAlgorithm r [a.name] a.name = .ok a
  fits : checkKey a key.curve = .ok ()
  writable : Json.Writable (.object header)
  chars : token.toList = Base64Url.encode (headerBytes header) ++ '.' :: Base64Url.encode payload ++
    '.' :: Base64Url.encode (signatureBytes ecdsa a key (signedText header payload))

variable {r : Registry} {ecdsa : Crypto.P256.Signatures} {header : Object} {payload : Bytes}
  {key : PrivateKey} {a : Algorithm} {token : String}

def Issued.parts (_ : Issued r ecdsa header payload key a token) : Compact :=
  Compact.ofParts header payload (signatureBytes ecdsa a key (signedText header payload))

theorem Issued.isAscii (h : Issued r ecdsa header payload key a token) :
    Text.IsAscii token.toList := by
  rw [h.chars]
  exact ((Base64Url.isAscii_encode _).append (.cons (by decide) (Base64Url.isAscii_encode _))).append
    (.cons (by decide) (Base64Url.isAscii_encode _))

theorem Issued.bytes (h : Issued r ecdsa header payload key a token) :
    Text.Utf8.encode token.toList = signedText header payload ++
      dot :: segment (signatureBytes ecdsa a key (signedText header payload)) := by
  rw [← bytesOfChars_of_isAscii h.isAscii, h.chars]
  simp [bytesOfChars, signedText, segment, dot]

theorem issued_of_sign (hraw : isRawPayload (.object header) = .ok false)
    (h : sign r ecdsa header payload key = .ok token) :
    ∃ a, Issued r ecdsa header payload key a token := by
  unfold sign at h
  simp only [Except.bind_eq_ok_iff, hraw, algorithmName_eq_ok_iff, Except.mapError_eq_ok_iff,
    Json.write_eq_ok_iff] at h
  obtain ⟨_, hchecked, _, ⟨⟩, name, hname, a, hchosen, _, hkey, text, ⟨hwritable, rfl⟩, h⟩ := h
  obtain ⟨rfl, -⟩ := Registry.find?_eq_some (chooseAlgorithm_eq_ok_iff.mp hchosen).1
  rw [String.toList_ofList, bytesOfChars_of_isAscii (Json.isAscii_chars _), ← headerBytes] at h
  simp only [Bool.false_and, Bool.false_eq_true, if_false,
    charsOfBytes_bytesOfChars (Base64Url.isAscii_encode payload)] at h
  obtain rfl := Except.ok.inj h
  refine ⟨a, hchecked, hname, hchosen, hkey, hwritable, ?_⟩
  rw [String.toList_ofList]
  rfl

/-- The size of a token and of each of its parts is within the limits. -/
def WithinLimits (token : Bytes) : Prop :=
  token.length ≤ Part.token.limit ∧
    ∀ p ∈ (Text.split dot token).zip [Part.header, Part.payload, Part.signature],
      p.1.length ≤ p.2.limit

instance (token : Bytes) : Decidable (WithinLimits token) := inferInstanceAs (Decidable (_ ∧ _))

theorem contains_iff_get? {o : Object} {name : String} {v : Value}
    (h : Object.get? o name = some v) : Object.contains o name = true := by
  rw [Object.contains, h]
  rfl

/-- A token is taken apart into the header and the payload that it was made for. -/
theorem Issued.extracted (h : Issued r ecdsa header payload key a token)
    (hwell : (Value.object header).WellFormed) (hraw : isRawPayload (.object header) = .ok false)
    (hlimits : WithinLimits (Text.Utf8.encode token.toList)) :
    Extracted (Text.Utf8.encode token.toList) h.parts := by
  unfold parts
  have hbytes := h.bytes
  generalize signatureBytes ecdsa a key (signedText header payload) = signature at hbytes ⊢
  have hsplit : Text.split dot (Text.Utf8.encode token.toList) =
      [segment (headerBytes header), segment payload, segment signature] :=
    split_eq_segments_iff.mpr ⟨hbytes, dot_not_mem_segment _, dot_not_mem_segment _,
      dot_not_mem_segment _⟩
  obtain ⟨hsize, hparts⟩ := hlimits
  rw [hsplit] at hparts
  simp only [List.zip_cons_cons, List.zip_nil_right, List.forall_mem_cons] at hparts
  obtain ⟨hheader, hpayload, hsignature, -⟩ := hparts
  exact
    { bytes := hbytes
      headerSegment := dot_not_mem_segment _
      payloadSegment := dot_not_mem_segment _
      signatureSegment := dot_not_mem_segment _
      size := hsize
      headerSize := hheader
      signatureSize := hsignature
      payloadSize := hpayload
      header := readHeader_eq_ok_iff.mpr ⟨headerBytes header, decodeSegment?_segment _,
        Json.readBytes_object Json.Style.readable_compactAscii hwell h.writable⟩
      algorithm := congrArg Except.ok (contains_iff_get? h.named)
      payload := .encoded hraw (decodeSegment?_segment payload) }

end Jws

namespace Signer

variable {r : Jws.Registry} {ecdsa : Crypto.P256.Signatures}

theorem ofJwk_eq_ok_iff {id jwk kid : Value} {signer : Signer} :
    ofJwk r ecdsa id jwk kid = .ok signer ↔ ∃ key, PrivateKey.ofJwk jwk = .ok key ∧
      signer = ⟨id, kid, .text key.algorithm, signWith r ecdsa (.key key)⟩ := by
  unfold ofJwk
  simp only [Except.bind_eq_ok_iff]
  exact exists_congr fun key => and_congr_right fun _ => Except.ok_eq_ok_iff

/-- The signer who holds a key makes the token of a claim set under a header. -/
structure Signs (r : Jws.Registry) (ecdsa : Crypto.P256.Signatures) (key : PrivateKey)
    (a : Jws.Algorithm) (claims header : Object) (token : String) : Prop where
  writable : Json.Writable (.object claims)
  issued : Jws.Issued r ecdsa header (Text.Utf8.encode (Json.chars .spaced (.object claims))) key a
    token

theorem signs_of_signWith {key : Held PrivateKey} {claims header : Object} {token : String}
    (hraw : Jws.isRawPayload (.object header) = .ok false)
    (h : signWith r ecdsa key (.object claims) (.object header) = .ok token) :
    ∃ k a, key = .key k ∧ Signs r ecdsa k a claims header token := by
  unfold signWith at h
  simp only [Except.bind_eq_ok_iff, Except.mapError_eq_ok_iff, Json.write_eq_ok_iff] at h
  obtain ⟨_, _, payload, ⟨hwritable, rfl⟩, k, hkey, _, _, _, ⟨⟩, hsign⟩ := h
  rw [String.toList_ofList] at hsign
  obtain ⟨a, hissued⟩ := Jws.issued_of_sign hraw hsign
  refine ⟨k, a, ?_, hwritable, hissued⟩
  cases key with
  | key found => exact congrArg Held.key (Except.ok.inj hkey)
  | other v => cases hkey

theorem header_eq_ok {signer : Signer} {header : Object}
    (h : signer.header r = .ok header) :
    ∃ algorithm, registeredAlgorithm r signer.algorithm = .ok algorithm ∧
      header = [("alg", algorithm), ("typ", .text "JWT")] ++
        if signer.kid.isTruthy then [("kid", signer.kid)] else [] := by
  unfold Signer.header at h
  simp only [Except.bind_eq_ok_iff, Except.mapError_eq_ok_iff] at h
  obtain ⟨algorithm, halgorithm, h⟩ := h
  exact ⟨algorithm, halgorithm, (Except.ok.inj h).symm⟩

theorem isRawPayload_header {signer : Signer} {header : Object}
    (h : signer.header r = .ok header) : Jws.isRawPayload (.object header) = .ok false := by
  obtain ⟨algorithm, -, rfl⟩ := header_eq_ok h
  split <;> rfl

end Signer

end Attest
