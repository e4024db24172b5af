import Attest.Proofs.Text.Ascii
import Attest.Proofs.Token.Compact
import Attest.Token.Parsed

/-! Tokens read without a look at their signatures: what a text has to be, and what is read from it. -/

namespace Attest.ParsedToken

/-- A text in ASCII, taken apart into `c`, is read as the token `t`: its header and its payload hold
objects, and the payload names a valid audience, if any. -/
structure ReadFrom (s : String) (c : Jws.Compact) (t : ParsedToken) : Prop where
  raw : t.raw = s
  ascii : ∀ ch ∈ s.toList, ch.toNat < 128
  extracted : Jws.Extracted (Text.Utf8.encode s.toList) c
  claims : Json.readBytes Json.digitLimit c.payload = .ok (.object t.claims)
  audience : Claims.hasValidAudience t.claims = true
  headers : headerObject c.header = .ok t.headers

theorem readClaims_eq_ok_iff {payload : Bytes} {claims : Claims} :
    readClaims payload = .ok claims ↔
      Json.readBytes Json.digitLimit payload = .ok (.object claims) ∧
        Claims.hasValidAudience claims = true := by
  unfold readClaims
  constructor
  · intro h
    split at h
    · cases h
    · cases h
    · rename_i found hread
      split at h
      · rename_i haudience
        cases h
        exact ⟨hread, haudience⟩
      · cases h
    · cases h
  · rintro ⟨hread, haudience⟩
    rw [hread]
    exact if_pos haudience

theorem headerObject_object (o : Object) : headerObject (.object o) = .ok o := rfl

theorem ofText_eq_ok_iff {s : String} {t : ParsedToken} :
    ofText s = .ok t ↔ ∃ c, ReadFrom s c t := by
  unfold ofText tokenBytes
  simp only [Except.bind_eq_ok_iff, Except.mapError_eq_ok_iff, Text.ascii_eq_ok_iff,
    Jws.extract_eq_ok_iff, readClaims_eq_ok_iff]
  constructor
  · rintro ⟨_, ⟨hascii, rfl⟩, c, hc, claims, ⟨hclaims, haudience⟩, headers, hheaders, ⟨⟩⟩
    exact ⟨c, rfl, hascii, hc, hclaims, haudience, hheaders⟩
  · rintro ⟨c, h⟩
    obtain ⟨raw, headers, claims⟩ := t
    obtain rfl : raw = s := h.raw
    exact ⟨_, ⟨h.ascii, rfl⟩, c, h.extracted, claims, ⟨h.claims, h.audience⟩, headers, h.headers, rfl⟩

theorem ofValue_eq_ok_iff {v : Value} {t : ParsedToken} :
    ofValue v = .ok t ↔ ∃ s, v = .text s ∧ ofText s = .ok t := by
  cases v <;> simp [ofValue, Value.asText]

end Attest.ParsedToken
