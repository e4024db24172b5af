import Attest.Proofs.Token.Covered
import Attest.Proofs.Verification.Stages

/-! What a verifier with a key gives back was signed with that key. This holds for credentials, for
presentations, and for what is read after the outer signature alone has been checked. -/

namespace Attest.Verify

theorem covered_of_ofValue {r : Jws.Registry} {id kid : Value} {key : PublicKey} {s : String}
    {parsed : ParsedToken} (hverify : (Verifier.ofKey r id (.key key) kid).verify (.text s) = .ok ())
    (hparsed : ParsedToken.ofValue (.text s) = .ok parsed) :
    parsed.raw = s ∧ ∃ c, parsed.Covered r key c := by
  obtain ⟨c, header, -, hcovered⟩ := Verifier.covered_of_verify hverify
  obtain ⟨_, ⟨⟩, htext⟩ := ParsedToken.ofValue_eq_ok_iff.mp hparsed
  obtain ⟨hraw, -, covered⟩ := hcovered parsed htext
  exact ⟨hraw, c, covered⟩

/-- The headers and the claims that are given back with a verified credential or presentation are
those that the signature of the token covers, and so are those that are read from a token of which the
outer signature was accepted. -/
theorem results_covered (r : Jws.Registry) (key : PublicKey) (id kid : Value) (token : String) :
    (∀ result s t, credential (.ofKey r id (.key key) kid) (.text token) s = (.ok result, t) →
      result.token.raw = token ∧ ∃ c, result.token.Covered r key c) ∧
    (∀ context resolver result s t,
      presentation r context (.ofKey r id (.key key) kid) resolver (.text token) s =
        (.ok result, t) →
      result.token.raw = token ∧ ∃ c, result.token.Covered r key c) ∧
    (∀ s t, signature (.ofKey r id (.key key) kid) (.text token) s = (.ok (), t) →
      ∃ c header, Jws.SignedUnder r key token c header ∧
        ∀ parsed, ParsedToken.ofText token = .ok parsed →
          parsed.raw = token ∧ parsed.headers = header ∧ parsed.Covered r key c) := by
  refine ⟨?_, ?_, ?_⟩
  · intro result s t h
    obtain ⟨hverify, hread, -⟩ := credential_eq_ok_iff.mp h
    exact covered_of_ofValue hverify (readCredential_eq_ok_iff.mp hread).1
  · intro context resolver result s t h
    obtain ⟨hverify, hread, -⟩ := stages_of_presentation_eq_ok h
    exact covered_of_ofValue hverify (readPresentation_eq_ok_iff.mp hread).1
  · intro s t h
    exact Verifier.covered_of_verify (signature_eq_ok_iff.mp h).1

/-- The verifier with the key of a secret seed of zero. -/
def zeroVerifier : Verifier := .ofKey [.edDsa] .null (.key zeroKey) .null

theorem zeroVerifier_verify : zeroVerifier.verify (.text zeroToken) = .ok () := by
  obtain ⟨_, h⟩ := Except.exists_of_isOk
    (show (zeroVerifier.verify (.text zeroToken)).isOk = true by decide +kernel)
  exact h

theorem zeroToken_covered :
    (∃ result t, credential zeroVerifier (.text zeroToken) .initial = (.ok result, t) ∧
      ∃ c, result.token.Covered [.edDsa] zeroKey c) ∧
    (∃ result t, presentation [.edDsa] none zeroVerifier (some Resolver.ofKeys) (.text zeroToken)
        .initial = (.ok result, t) ∧ ∃ c, result.token.Covered [.edDsa] zeroKey c) ∧
    (∃ t, signature zeroVerifier (.text zeroToken) .initial = (.ok (), t) ∧
      ∃ c header, Jws.SignedUnder [.edDsa] zeroKey zeroToken c header) := by
  obtain ⟨hcredential, hpresentation, hsignature⟩ :=
    results_covered [.edDsa] zeroKey .null .null zeroToken
  refine ⟨?_, ?_, ?_⟩
  · obtain ⟨result, hread⟩ := Except.exists_of_isOk
      (show (readCredential (.text zeroToken)).isOk = true by decide +kernel)
    have h := credential_eq_ok_iff (s := .initial).mpr ⟨zeroVerifier_verify, hread, rfl⟩
    exact ⟨result, _, h, (hcredential result _ _ h).2⟩
  · obtain ⟨result, t, h⟩ : ∃ result t, presentation [.edDsa] none zeroVerifier
        (some Resolver.ofKeys) (.text zeroToken) .initial = (.ok result, t) := by
      rw [presentation_of_verify zeroVerifier_verify]
      exact Run.exists_of_isOk (by decide +kernel)
    exact ⟨result, t, h, (hpresentation _ _ result _ t h).2⟩
  · have h := signature_of_ok (s := .initial) zeroVerifier_verify
    obtain ⟨c, header, signed, -⟩ := hsignature _ _ h
    exact ⟨_, h, c, header, signed⟩

end Attest.Verify
