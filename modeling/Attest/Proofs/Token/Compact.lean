import Attest.Jws.Compact
import Attest.Proofs.Run

/-! Tokens in compact form: which bytes are taken apart and into what, and when the signature of a
token is accepted under a key. -/

namespace Attest.Jws

/-- The payload is what the second segment stands for, or the segment itself if the header says
so. -/
inductive Compact.HoldsPayload (c : Compact) : Prop
  | encoded (h : isRawPayload c.header = .ok false)
      (decoded : decodeSegment? c.payloadSegment = some c.payload)
  | raw (h : isRawPayload c.header = .ok true) (same : c.payload = c.payloadSegment)

/-- The bytes of a token are three segments of limited size between dots. The first one holds the
header, which names an algorithm, and the second one the payload. -/
structure Extracted (token : Bytes) (c : Compact) : Prop where
  bytes : token = c.signedPart ++ dot :: c.signatureSegment
  headerSegment : dot ∉ c.headerSegment
  payloadSegment : dot ∉ c.payloadSegment
  signatureSegment : dot ∉ c.signatureSegment
  size : token.length ≤ Part.token.limit
  headerSize : c.headerSegment.length ≤ Part.header.limit
  signatureSize : c.signatureSegment.length ≤ Part.signature.limit
  payloadSize : c.payloadSegment.length ≤ Part.payload.limit
  header : readHeader c.headerSegment = .ok c.header
  algorithm : c.header.hasName "alg" = .ok true
  payload : c.HoldsPayload

theorem checkSize_eq_ok_iff {part : Part} {bytes : Bytes} {u : Unit} :
    checkSize part bytes = .ok u ↔ bytes.length ≤ part.limit := by
  by_cases h : part.limit < bytes.length
  · simp [checkSize, h]
  · simp [checkSize, h, Nat.le_of_not_lt h]

theorem readHeader_eq_ok_iff {segment : Bytes} {v : Value} :
    readHeader segment = .ok v ↔
      ∃ bytes, decodeSegment? segment = some bytes ∧ Json.readBytes Json.digitLimit bytes = .ok v := by
  cases hbytes : decodeSegment? segment with
  | none => simp [readHeader, hbytes]
  | some bytes => cases hread : Json.readBytes Json.digitLimit bytes <;>
      simp [readHeader, hbytes, hread]

theorem split_eq_segments_iff {token a b c : Bytes} :
    Text.split dot token = [a, b, c] ↔
      token = a ++ dot :: b ++ dot :: c ∧ dot ∉ a ∧ dot ∉ b ∧ dot ∉ c := by
  constructor
  · intro h
    obtain ⟨rest, rfl, ha, hrest⟩ := Text.split_eq_cons_iff.mp h
    obtain ⟨last, rfl, hb, hlast⟩ := Text.split_eq_cons_iff.mp hrest
    obtain ⟨rfl, hc⟩ := Text.split_eq_singleton_iff.mp hlast
    exact ⟨by simp, ha, hb, hc⟩
  · rintro ⟨rfl, ha, hb, hc⟩
    rw [List.append_assoc, List.cons_append, Text.split_append, Text.split_append,
      Text.split_of_not_mem ha, Text.split_of_not_mem hb, Text.split_of_not_mem hc]
    rfl

theorem Extracted.segments {token : Bytes} {c : Compact} (h : Extracted token c) :
    Text.split dot token = [c.headerSegment, c.payloadSegment, c.signatureSegment] :=
  split_eq_segments_iff.mpr ⟨h.bytes, h.headerSegment, h.payloadSegment, h.signatureSegment⟩

/-- A token is taken apart exactly if it has the form of one, and into the parts that it has. -/
theorem extract_eq_ok_iff {token : Bytes} {c : Compact} :
    extract token = .ok c ↔ Extracted token c := by
  constructor
  · intro h
    unfold extract at h
    simp only [Except.bind_eq_ok_iff, checkSize_eq_ok_iff] at h
    obtain ⟨_, hsize, h⟩ := h
    split at h
    · rename_i a b s hsplit
      obtain ⟨htoken, ha, hb, hs⟩ := split_eq_segments_iff.mp hsplit
      simp only [Except.bind_eq_ok_iff, checkSize_eq_ok_iff] at h
      -- The sizes are checked in the order header, signature, payload.
      obtain ⟨_, haSize, _, hsSize, _, hbSize, header, hheader, h⟩ := h
      split at h
      · cases h
      · cases h
      · rename_i halg
        simp only [Except.bind_eq_ok_iff] at h
        obtain ⟨raw, hraw, h⟩ := h
        cases raw with
        | true =>
          cases h
          exact ⟨htoken, ha, hb, hs, hsize, haSize, hsSize, hbSize, hheader, halg, .raw hraw rfl⟩
        | false =>
          rw [if_neg (by decide)] at h
          split at h
          · rename_i payload hpayload
            cases h
            exact ⟨htoken, ha, hb, hs, hsize, haSize, hsSize, hbSize, hheader, halg,
              .encoded hraw hpayload⟩
          · cases h
    · cases h
  · intro h
    obtain ⟨a, b, s, header, payload⟩ := c
    unfold extract
    simp only [Except.bind_eq_ok_iff, checkSize_eq_ok_iff, h.segments]
    refine ⟨(), h.size, (), h.headerSize, (), h.signatureSize, (), h.payloadSize, header, h.header,
      ?_⟩
    rw [show header.hasName "alg" = .ok true from h.algorithm]
    simp only [Except.bind_eq_ok_iff]
    cases h.payload with
    | raw hraw same =>
      cases same
      exact ⟨true, hraw, rfl⟩
    | encoded hraw decoded =>
      refine ⟨false, hraw, ?_⟩
      rw [if_neg (by decide), show decodeSegment? b = some payload from decoded]
      rfl

/-- A token is taken apart in one way only. -/
theorem Extracted.unique {token : Bytes} {c d : Compact} (hc : Extracted token c)
    (hd : Extracted token d) : c = d := by
  have h := extract_eq_ok_iff.mpr hc
  rw [extract_eq_ok_iff.mpr hd] at h
  exact (Except.ok.inj h).symm

end Attest.Jws
