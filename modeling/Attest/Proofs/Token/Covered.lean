import Attest.Proofs.Token.Parsed
import Attest.Proofs.Token.Signature
import Attest.Token.Verifier

/-! What the signature of a token covers. A verifier takes the bytes of a text apart to check their
signature, and the text is taken apart a second time to be read; both times this gives the same parts,
so what is read is what was signed. -/

namespace Attest

namespace Jws

/-- A token has three segments. The first one is the header, and the third one is a signature of the
first two under the key, made with an algorithm of the key that the header names. -/
structure SignedUnder (r : Registry) (key : PublicKey) (token : String) (c : Compact)
    (header : Object) : Prop where
  segments : Text.split dot (Text.Utf8.encode token.toList) =
    [c.headerSegment, c.payloadSegment, c.signatureSegment]
  decoded : ∃ bytes, decodeSegment? c.headerSegment = some bytes ∧
    Json.readBytes Json.digitLimit bytes = .ok (.object header)
  isObject : c.header = .object header
  signed : ∃ signature, decodeSegment? c.signatureSegment = some signature ∧
    key.verify (c.headerSegment ++ dot :: c.payloadSegment) signature = true
  algorithm : ∃ a ∈ r, Object.get? header "alg" = some (.text a.name) ∧ key.Suits a

theorem SignedUnder.of_verify {r : Registry} {key : PublicKey} {token : String} {c : Compact}
    (hc : Extracted (Text.Utf8.encode token.toList) c)
    (h : verify r (key.algorithms r) key c = .ok ()) :
    ∃ header, SignedUnder r key token c header := by
  obtain ⟨header, a, signature, accepted⟩ := verify_eq_ok_iff.mp h
  obtain ⟨bytes, hbytes, hread⟩ := readHeader_eq_ok_iff.mp hc.header
  rw [accepted.isObject] at hread
  have ha : a ∈ r :=
    (Registry.find?_eq_some (chooseAlgorithm_eq_ok_iff.mp accepted.chosen).1).2
  exact ⟨header,
    { segments := hc.segments
      decoded := ⟨bytes, hbytes, hread⟩
      isObject := accepted.isObject
      signed := ⟨signature, accepted.decoded, accepted.signed⟩
      algorithm := ⟨a, ha, accepted.named, PublicKey.suits_of_chosen accepted.chosen accepted.fits⟩ }⟩

end Jws

namespace ParsedToken

/-- The headers and the claims of a token that was read are the JSON values of what its signature
covers. -/
structure Covered (r : Jws.Registry) (key : PublicKey) (t : ParsedToken) (c : Jws.Compact) :
    Prop where
  signed : Jws.SignedUnder r key t.raw c t.headers
  payload : c.HoldsPayload
  claims : Json.readBytes Json.digitLimit c.payload = .ok (.object t.claims)

/-- A token that is signed is read as what the signature covers. -/
theorem covered_of_signed {r : Jws.Registry} {key : PublicKey} {s : String} {c : Jws.Compact}
    {header : Object} {t : ParsedToken} (hc : Jws.Extracted (Text.Utf8.encode s.toList) c)
    (signed : Jws.SignedUnder r key s c header) (ht : ofText s = .ok t) :
    t.raw = s ∧ t.headers = header ∧ t.Covered r key c := by
  obtain ⟨d, hread⟩ := ofText_eq_ok_iff.mp ht
  obtain rfl : c = d := hc.unique hread.extracted
  have hheaders := hread.headers
  rw [signed.isObject, headerObject_object] at hheaders
  obtain rfl : header = t.headers := Except.ok.inj hheaders
  refine ⟨hread.raw, rfl, ?_, hc.payload, hread.claims⟩
  rw [hread.raw]
  exact signed

end ParsedToken

namespace Verifier

theorem check_text_eq_ok_iff {r : Jws.Registry} {key : PublicKey} {s : String} :
    check r key (.text s) = .ok () ↔
      ∃ c, Jws.Extracted (Text.Utf8.encode s.toList) c ∧
        Jws.verify r (key.algorithms r) key c = .ok () := by
  unfold check tokenBytes
  simp only [Except.bind_eq_ok_iff, Except.mapError_eq_ok_iff, Jws.extract_eq_ok_iff]
  constructor
  · rintro ⟨_, ⟨⟩, c, hc, hverify⟩
    exact ⟨c, hc, hverify⟩
  · rintro ⟨c, hc, hverify⟩
    exact ⟨_, rfl, c, hc, hverify⟩

theorem ofJwk_eq_ok_iff {r : Jws.Registry} {id jwk kid : Value} {verifier : Verifier} :
    ofJwk r id jwk kid = .ok verifier ↔
      ∃ key, PublicKey.ofJwk jwk = .ok key ∧ verifier = ofKey r id (.key key) kid := by
  unfold ofJwk
  simp only [Except.bind_eq_ok_iff]
  exact exists_congr fun key => and_congr_right fun _ => Except.ok_eq_ok_iff

theorem ofKey_verify_eq_ok_iff {r : Jws.Registry} {id kid token : Value} {key : PublicKey} :
    (ofKey r id (.key key) kid).verify token = .ok () ↔ check r key token = .ok () := by
  unfold ofKey verifyWith
  simp only [Except.bind_eq_ok_iff, Except.mapError_eq_ok_iff, Held.get]
  constructor
  · rintro ⟨_, ⟨⟩, h⟩
    exact h
  · intro h
    exact ⟨key, rfl, h⟩

/-- The signature of a text that a verifier accepts covers all that is read from the text. -/
theorem covered_of_verify {r : Jws.Registry} {id kid : Value} {key : PublicKey} {s : String}
    (h : (ofKey r id (.key key) kid).verify (.text s) = .ok ()) :
    ∃ c header, Jws.SignedUnder r key s c header ∧
      ∀ t, ParsedToken.ofText s = .ok t → t.raw = s ∧ t.headers = header ∧ t.Covered r key c := by
  obtain ⟨c, hc, hverify⟩ := check_text_eq_ok_iff.mp (ofKey_verify_eq_ok_iff.mp h)
  obtain ⟨header, signed⟩ := Jws.SignedUnder.of_verify hc hverify
  exact ⟨c, header, signed, fun t ht => ParsedToken.covered_of_signed hc signed ht⟩

end Verifier

/-- The key of an identity whose secret seed is zero. -/
def zeroKey : PublicKey := (PrivateKey.ed25519 ⟨List.replicate 32 0, rfl⟩).publicKey

/-- A token of this identity, with an issuer, a credential and a presentation that have no members. -/
def zeroToken : String :=
  "eyJhbGciOiJFZERTQSJ9.eyJpc3MiOiAiYSIsICJ2YyI6IHt9LCAidnAiOiB7fX0." ++
    "4MtjXpZ6wS8LhXiCvLRv5Ta87WuLTN9kNSFgdxCfsqMWTuaKBWdroMQQ_FyARn24I7tRS7TKD_W4vPqyqQy4Dw"

end Attest
