import Attest.Proofs.Claims.Decoding
import Attest.Proofs.Issue.Presentation
import Attest.Proofs.Verification.KeyIssuer

/-! What becomes of the tokens that a signer makes. The size of a token is looked at when it is read and
not when it is made, so a token may be made that nobody can read; it is never one within the limits. The
same holds of the subject of a credential, which must be an object only when the credential is read. -/

namespace Attest

namespace Jws

theorem Extracted.withinLimits {token : Bytes} {c : Compact} (h : Extracted token c) :
    WithinLimits token := by
  refine ⟨h.size, ?_⟩
  rw [h.segments]
  intro p hp
  simp only [List.zip_cons_cons, List.zip_nil_right, List.mem_cons, List.not_mem_nil,
    or_false] at hp
  rcases hp with rfl | rfl | rfl
  · exact h.headerSize
  · exact h.payloadSize
  · exact h.signatureSize

end Jws

theorem not_withinLimits_of_header {header : Object} {payload signature : Bytes}
    (h : Jws.Part.header.limit < (Jws.segment (Jws.headerBytes header)).length) :
    ¬Jws.WithinLimits (Jws.signedText header payload ++ Jws.dot :: Jws.segment signature) := by
  intro hlimits
  have hsplit := Jws.split_eq_segments_iff.mpr ⟨rfl, Jws.dot_not_mem_segment (Jws.headerBytes header),
    Jws.dot_not_mem_segment payload, Jws.dot_not_mem_segment signature⟩
  have hparts := hlimits.2
  rw [Jws.signedText, hsplit] at hparts
  exact absurd (hparts _ List.mem_cons_self) (Nat.not_le_of_lt h)

/-- No verifier accepts a token that is not within the limits of size, whatever the key. -/
theorem Verifier.withinLimits_of_verify {r : Jws.Registry} {id kid : Value} {key : PublicKey}
    {token : String} (h : (ofKey r id (.key key) kid).verify (.text token) = .ok ()) :
    Jws.WithinLimits (Text.Utf8.encode token.toList) := by
  obtain ⟨c, hextracted, -⟩ := check_text_eq_ok_iff.mp (ofKey_verify_eq_ok_iff.mp h)
  exact hextracted.withinLimits

namespace Signer

variable {r : Jws.Registry} {ecdsa : Crypto.P256.Signatures} {signer : Signer} {key : PrivateKey}
  {a : Jws.Algorithm} {claims header : Object} {token : String}

/-- A token is read as what was signed exactly if it is within the limits. -/
theorem Signs.ofValue_eq_ok_iff (h : Signs r ecdsa key a claims header token)
    (hheader : signer.header r = .ok header) (hsound : Claims.Sound claims) {t : ParsedToken} :
    ParsedToken.ofValue (.text token) = .ok t ↔
      Jws.WithinLimits (Text.Utf8.encode token.toList) ∧ t = ⟨token, header, claims⟩ := by
  have hread (hlimits : Jws.WithinLimits (Text.Utf8.encode token.toList)) :
      ParsedToken.ofValue (.text token) = .ok ⟨token, header, claims⟩ :=
    ParsedToken.ofValue_eq_ok_iff.mpr ⟨token, rfl, ParsedToken.ofText_eq_ok_iff.mpr
      ⟨_, h.readFrom hheader hsound.wellFormed hsound.audience hlimits⟩⟩
  constructor
  · intro ht
    obtain ⟨_, ⟨⟩, htext⟩ := ParsedToken.ofValue_eq_ok_iff.mp ht
    obtain ⟨c, hc⟩ := ParsedToken.ofText_eq_ok_iff.mp htext
    have hlimits := hc.extracted.withinLimits
    exact ⟨hlimits, Except.ok.inj (ht.symm.trans (hread hlimits))⟩
  · rintro ⟨hlimits, rfl⟩
    exact hread hlimits

/-- The signer's token is accepted under the public key exactly if it is within the limits. -/
theorem Signs.verify_eq_ok_iff {signerId signerKid algorithm : Value}
    (h : Signs r ecdsa key a claims header token) (hasks : Asks key algorithm)
    (hsigner : ofKey r ecdsa signerId (.key key) signerKid algorithm = .ok signer)
    (hheader : signer.header r = .ok header)
    (hsignature : key.publicKey.verify (Jws.signedPartOf (Text.Utf8.encode token.toList))
      (key.sign ecdsa (Jws.signedPartOf (Text.Utf8.encode token.toList))) = true) (id kid : Value) :
    (Verifier.ofKey r id (.key key.publicKey) kid).verify (.text token) = .ok () ↔
      Jws.WithinLimits (Text.Utf8.encode token.toList) := by
  constructor
  · exact Verifier.withinLimits_of_verify
  · intro hlimits
    obtain ⟨hsome, hchosen⟩ := h.chosen_of_asks hasks hsigner hheader
    exact Verifier.ofKey_verify_eq_ok_iff.mpr (h.issued.accepted
      (wellFormed_header hheader h.issued.checked h.issued.named)
      (isRawPayload_header hheader) hlimits hsome hchosen hsignature)

end Signer

/-- A presentation with a holder is made of its claim set again. -/
theorem Claims.exists_toPresentation {claims : Claims} {p : Presentation} {o : Object}
    (h : Issue.Claimed claims p o) (hholder : p.holder.isTruthy = true) :
    ∃ q, toPresentation claims = .ok q := by
  obtain ⟨holder, htext⟩ := Value.exists_of_isText (h.holderText hholder)
  have hiss := h.holder
  rw [if_pos hholder, htext] at hiss
  exact toPresentation_of_holder h.presentation hiss

namespace Verify

variable {w : Surroundings} {ecdsa : Crypto.P256.Signatures} {signerId kid algorithm : Value}
  {key : PrivateKey} {signer : Signer} {token : String} {s t : Session}

/-- The token of a credential is read exactly if it is within the limits and the subject is neither
false nor zero. -/
theorem exists_readCredential_iff {c : Credential}
    (hsigner : Signer.ofKey w.registry ecdsa signerId (.key key) kid algorithm = .ok signer)
    (hwell : (Value.credential c).WellFormed)
    (hissue : Issue.credential w signer c s = (.ok token, t)) :
    (∃ result, readCredential (.text token) = .ok result) ↔
      Jws.WithinLimits (Text.Utf8.encode token.toList) ∧
        (c.subject.isTruthy = true ∨ c.subject.isEmpty = true) := by
  obtain ⟨claims, header, a, hclaims, hheader, hsigns⟩ := Issue.credential_signs hsigner hissue
  have hsound := Claims.sound_of_ofCredential hclaims hwell
  rw [← Claims.exists_toCredential_iff hclaims]
  constructor
  · rintro ⟨result, hresult⟩
    obtain ⟨hparsed, hcredential⟩ := readCredential_eq_ok_iff.mp hresult
    obtain ⟨hlimits, htoken⟩ := (hsigns.ofValue_eq_ok_iff hheader hsound).mp hparsed
    rw [htoken] at hcredential
    exact ⟨hlimits, _, hcredential⟩
  · rintro ⟨hlimits, d, hd⟩
    exact ⟨⟨⟨token, header, claims⟩, d⟩, readCredential_eq_ok_iff.mpr
      ⟨(hsigns.ofValue_eq_ok_iff hheader hsound).mpr ⟨hlimits, rfl⟩, hd⟩⟩

/-- The token of a presentation with a holder is read exactly if it is within the limits. -/
theorem exists_readPresentation_iff {terms : Option PresentationTerms} {p : Presentation}
    (hsigner : Signer.ofKey w.registry ecdsa signerId (.key key) kid algorithm = .ok signer)
    (hwell : ∀ f, (p.get f).WellFormed) (hholder : p.holder.isTruthy = true)
    (hissue : Issue.presentation w signer terms p s = (.ok token, t)) :
    (∃ result, readPresentation (.text token) = .ok result) ↔
      Jws.WithinLimits (Text.Utf8.encode token.toList) := by
  obtain ⟨claims, header, hclaims, hheader, hsign⟩ := Issue.presentation_eq_ok hissue
  obtain ⟨-, o, -, hclaimed⟩ := Issue.claimed_of_presentationClaims hclaims
  obtain ⟨k, a, ⟨⟩, hsigns⟩ := Signer.signs_of_sign hsigner hheader hsign
  have hparsed := fun t => hsigns.ofValue_eq_ok_iff hheader (hclaimed.sound hwell) (t := t)
  constructor
  · rintro ⟨result, hresult⟩
    exact ((hparsed _).mp (readPresentation_eq_ok_iff.mp hresult).1).1
  · intro hlimits
    obtain ⟨q, hq⟩ := Claims.exists_toPresentation hclaimed hholder
    exact ⟨⟨⟨token, header, claims⟩, q⟩,
      readPresentation_eq_ok_iff.mpr ⟨(hparsed _).mpr ⟨hlimits, rfl⟩, hq⟩⟩

/-- What a signer with the algorithm of the own key makes is accepted by every verifier with the public
key, and it is read, exactly if it is within the limits of size; but a credential is not read if its
subject is false or zero. Whichever signature the key gives, it need only verify. -/
theorem issued_accepted_iff
    (hsigner : Signer.ofKey w.registry ecdsa signerId (.key key) kid algorithm = .ok signer)
    (hasks : Signer.Asks key algorithm)
    (hsignature : key.publicKey.verify (Jws.signedPartOf (Text.Utf8.encode token.toList))
      (key.sign ecdsa (Jws.signedPartOf (Text.Utf8.encode token.toList))) = true) :
    (∀ (c : Credential) (s t : Session), (Value.credential c).WellFormed →
      Issue.credential w signer c s = (.ok token, t) →
      (∀ id kid, (Verifier.ofKey w.registry id (.key key.publicKey) kid).verify (.text token) =
        .ok () ↔ Jws.WithinLimits (Text.Utf8.encode token.toList)) ∧
      ((∃ result, readCredential (.text token) = .ok result) ↔
        Jws.WithinLimits (Text.Utf8.encode token.toList) ∧
          (c.subject.isTruthy = true ∨ c.subject.isEmpty = true))) ∧
    ∀ (terms : Option PresentationTerms) (p : Presentation) (s t : Session),
      (∀ f, (p.get f).WellFormed) → p.holder.isTruthy = true →
      Issue.presentation w signer terms p s = (.ok token, t) →
      (∀ id kid, (Verifier.ofKey w.registry id (.key key.publicKey) kid).verify (.text token) =
        .ok () ↔ Jws.WithinLimits (Text.Utf8.encode token.toList)) ∧
      ((∃ result, readPresentation (.text token) = .ok result) ↔
        Jws.WithinLimits (Text.Utf8.encode token.toList)) := by
  constructor
  · intro c s t hwell hissue
    obtain ⟨claims, header, a, -, hheader, hsigns⟩ := Issue.credential_signs hsigner hissue
    exact ⟨hsigns.verify_eq_ok_iff hasks hsigner hheader hsignature,
      exists_readCredential_iff hsigner hwell hissue⟩
  · intro terms p s t hwell hholder hissue
    obtain ⟨claims, header, -, hheader, hsign⟩ := Issue.presentation_eq_ok hissue
    obtain ⟨k, a, ⟨⟩, hsigns⟩ := Signer.signs_of_sign hsigner hheader hsign
    exact ⟨hsigns.verify_eq_ok_iff hasks hsigner hheader hsignature,
      exists_readPresentation_iff hsigner hwell hholder hissue⟩

/-- The signer with a key, an identifier of the key and a name of an algorithm, who draws the nonce 2. -/
def labelledSigner (key : PrivateKey) (kid label : String) : Signer :=
  ⟨.text "a", .text kid, .text label, Signer.signWith [.es256, .edDsa] (.ofNonce 2) (.key key)⟩

theorem ofKey_labelledSigner (key : PrivateKey) (kid label : String) :
    Signer.ofKey bothAlgorithms.registry (.ofNonce 2) (.text "a") (.key key) (.text kid)
      (.text label) = .ok (labelledSigner key kid label) := rfl

def labelledHeader (kid name : String) : Object :=
  [("alg", .text name), ("typ", .text "JWT"), ("kid", .text kid)]

theorem header_labelledSigner {key : PrivateKey} {kid label name : String}
    (hkid : (Value.text kid).isTruthy = true)
    (hname : Signer.registeredAlgorithm bothAlgorithms.registry (.text label) = .ok (.text name)) :
    (labelledSigner key kid label).header bothAlgorithms.registry = .ok (labelledHeader kid name) := by
  have htruthy : (labelledSigner key kid label).kid.isTruthy = true := hkid
  have hlabel : Signer.registeredAlgorithm bothAlgorithms.registry
      (labelledSigner key kid label).algorithm = .ok (.text name) := hname
  unfold Signer.header
  rw [if_pos htruthy, hlabel]
  rfl

/-- A credential with an identifier and a subject. -/
def namedCredential (subject : Value) : Credential :=
  { Credential.empty with
    id := .text "c"
    subject := subject }

/-- The claims of a credential with this identifier and no more. -/
def namedClaims : Claims := [("nonce", .text "n"), ("jti", .text "c"), ("vc", .object [])]

/-- The claims of the presentation of a token and a credential. -/
def mixedPresentationClaims : Claims :=
  [("iat", .int 0), ("nbf", .int 0), ("nonce", .text "n"), ("iss", .text "a"),
    ("vp", .object [("verifiableCredential", .list [.text "x", .object [("id", .text "c")]])])]

section Labelled

variable {key : PrivateKey} {kid label name token : String} {t : Session}
  (hasks : Signer.Asks key (.text label)) (hkid : (Value.text kid).isTruthy = true)
  (hname : Signer.registeredAlgorithm bothAlgorithms.registry (.text label) = .ok (.text name))
include hasks hkid hname

theorem algorithm_of_labelledSigner {claims header : Object} {a : Jws.Algorithm}
    (hheader : (labelledSigner key kid label).header bothAlgorithms.registry = .ok header)
    (hsigns : Signer.Signs bothAlgorithms.registry (.ofNonce 2) key a claims header token) :
    a ≠ .none ∧ header = labelledHeader kid name :=
  ⟨(hsigns.chosen_of_asks hasks (ofKey_labelledSigner key kid label) hheader).1,
    Except.ok.inj (hheader.symm.trans (header_labelledSigner hkid hname))⟩

/-- What such a signer signs for a credential is known. -/
theorem labelledSigner_signs (hissue : Issue.credential bothAlgorithms (labelledSigner key kid label)
      (namedCredential (.object [])) .initial = (.ok token, t)) :
    ∃ a, a ≠ .none ∧ Signer.Signs bothAlgorithms.registry (.ofNonce 2) key a namedClaims
      (labelledHeader kid name) token := by
  obtain ⟨claims, header, a, hclaims, hheader, hsigns⟩ :=
    Issue.credential_signs (ofKey_labelledSigner key kid label) hissue
  obtain rfl : namedClaims = claims := Except.ok.inj hclaims
  obtain ⟨hsome, rfl⟩ := algorithm_of_labelledSigner hasks hkid hname hheader hsigns
  exact ⟨a, hsome, hsigns⟩

theorem labelledSigner_presents (hissue : Issue.presentation bothAlgorithms
      (labelledSigner key kid label) none mixedPresentation .initial = (.ok token, t)) :
    ∃ a, a ≠ .none ∧ Signer.Signs bothAlgorithms.registry (.ofNonce 2) key a mixedPresentationClaims
      (labelledHeader kid name) token := by
  obtain ⟨claims, header, hclaims, hheader, hsign⟩ := Issue.presentation_eq_ok hissue
  obtain ⟨_, a, ⟨⟩, hsigns⟩ :=
    Signer.signs_of_sign (ofKey_labelledSigner key kid label) hheader hsign
  obtain rfl : mixedPresentationClaims = claims := Except.ok.inj hclaims
  obtain ⟨hsome, rfl⟩ := algorithm_of_labelledSigner hasks hkid hname hheader hsigns
  exact ⟨a, hsome, hsigns⟩

end Labelled

/-- The tokens that a key signs for a credential and for a presentation are accepted under its public key,
and read. -/
def AcceptedAndRead (key : PrivateKey) (label : String) : Prop :=
  let signer := labelledSigner key "é" label
  let verifier := Verifier.ofKey bothAlgorithms.registry .null (.key key.publicKey) .null
  (∃ token t result,
    Issue.credential bothAlgorithms signer (namedCredential (.object [])) .initial = (.ok token, t) ∧
    verifier.verify (.text token) = .ok () ∧ readCredential (.text token) = .ok result) ∧
  ∃ token t result,
    Issue.presentation bothAlgorithms signer none mixedPresentation .initial = (.ok token, t) ∧
    verifier.verify (.text token) = .ok () ∧ readPresentation (.text token) = .ok result

/-- Both kinds of keys, the one asked for by the name of its algorithm, the other one by the name of its
curve. -/
theorem issued_accepted_labelled :
    AcceptedAndRead (.p256 .one) "ES256" ∧ AcceptedAndRead Signer.zeroPrivateKey "Ed25519" := by
  have hwell : ∀ f, (mixedPresentation.get f).WellFormed := by
    intro f
    cases f <;> decide
  have haccepted {key : PrivateKey} {label name : String} (hasks : Signer.Asks key (.text label))
      (hname : Signer.registeredAlgorithm bothAlgorithms.registry (.text label) = .ok (.text name))
      (hcredential : IsWellSigned key (labelledHeader "é" name) namedClaims)
      (hpresentation : IsWellSigned key (labelledHeader "é" name) mixedPresentationClaims)
      (hissue : Except.isOk (Issue.credential bothAlgorithms (labelledSigner key "é" label)
        (namedCredential (.object [])) .initial).1 = true)
      (hpresent : Except.isOk (Issue.presentation bothAlgorithms (labelledSigner key "é" label) none
        mixedPresentation .initial).1 = true) : AcceptedAndRead key label := by
    have hsigner := ofKey_labelledSigner key "é" label
    constructor
    · obtain ⟨token, t, hissue⟩ := Run.exists_of_isOk hissue
      obtain ⟨a, hsome, hsigns⟩ := labelledSigner_signs hasks rfl hname hissue
      obtain ⟨hlimits, hsignature⟩ := limits_and_signature_of_isWellSigned hsigns hsome hcredential
      obtain ⟨hverify, hread⟩ := (issued_accepted_iff hsigner hasks hsignature).1 _ _ _
        (by decide +kernel) hissue
      obtain ⟨result, hresult⟩ := hread.mpr ⟨hlimits, .inr rfl⟩
      exact ⟨token, t, result, hissue, (hverify .null .null).mpr hlimits, hresult⟩
    · obtain ⟨token, t, hissue⟩ := Run.exists_of_isOk hpresent
      obtain ⟨a, hsome, hsigns⟩ := labelledSigner_presents hasks rfl hname hissue
      obtain ⟨hlimits, hsignature⟩ := limits_and_signature_of_isWellSigned hsigns hsome hpresentation
      obtain ⟨hverify, hread⟩ := (issued_accepted_iff hsigner hasks hsignature).2 none _ _ _
        hwell rfl hissue
      obtain ⟨result, hresult⟩ := hread.mpr hlimits
      exact ⟨token, t, result, hissue, (hverify .null .null).mpr hlimits, hresult⟩
  exact ⟨haccepted (.name _) rfl (by decide +kernel) (by decide +kernel) (by decide +kernel)
      (by decide +kernel),
    haccepted (.curve _) rfl (by decide +kernel) (by decide +kernel) (by decide +kernel)
      (by decide +kernel)⟩

/-- An identifier of a key that takes twelve characters for each of its own in a header. -/
def longKid : String := "😀😀😀😀😀😀😀😀😀😀😀😀😀😀😀😀😀😀😀😀😀😀😀😀😀😀😀😀😀😀"

/-- A signer with this identifier makes a token and its signature verifies, but no verifier accepts the
token and nobody reads it. A token of a credential whose subject is zero is not read either. -/
theorem refuses_longKid :
    (∃ token t, Issue.credential bothAlgorithms
        (labelledSigner Signer.zeroPrivateKey longKid "Ed25519") (namedCredential (.object []))
        .initial = (.ok token, t) ∧
      Signer.zeroPrivateKey.publicKey.verify (Jws.signedPartOf (Text.Utf8.encode token.toList))
        (Signer.zeroPrivateKey.sign (.ofNonce 2)
          (Jws.signedPartOf (Text.Utf8.encode token.toList))) = true ∧
      (∀ r id kid key, (Verifier.ofKey r id (.key key) kid).verify (.text token) ≠ .ok ()) ∧
      ¬∃ result, readCredential (.text token) = .ok result) ∧
    ∃ token t, Issue.credential bothAlgorithms
        (labelledSigner Signer.zeroPrivateKey "é" "Ed25519") (namedCredential (.int 0))
        .initial = (.ok token, t) ∧
      ¬∃ result, readCredential (.text token) = .ok result := by
  constructor
  · obtain ⟨token, t, hissue⟩ : ∃ token t, Issue.credential bothAlgorithms
        (labelledSigner Signer.zeroPrivateKey longKid "Ed25519") (namedCredential (.object []))
        .initial = (.ok token, t) := Run.exists_of_isOk (by decide +kernel)
    have hname : Signer.registeredAlgorithm bothAlgorithms.registry (.text "Ed25519") =
        .ok (.text "EdDSA") := rfl
    obtain ⟨a, hsome, hsigns⟩ :=
      labelledSigner_signs (.curve _) (by decide +kernel) hname hissue
    have hbytes := hsigns.issued.bytes_of_signs hsome
    have hlimits : ¬Jws.WithinLimits (Text.Utf8.encode token.toList) := by
      rw [hbytes]
      exact not_withinLimits_of_header (by decide +kernel)
    refine ⟨token, t, hissue, ?_, ?_, ?_⟩
    · rw [hbytes, Jws.signedPartOf_append (Jws.dot_not_mem_segment _)]
      decide +kernel
    · intro r id kid key hverify
      exact hlimits (Verifier.withinLimits_of_verify hverify)
    · intro hread
      exact hlimits ((exists_readCredential_iff (ofKey_labelledSigner _ _ _) (by decide +kernel)
        hissue).mp hread).1
  · obtain ⟨token, t, hissue⟩ : ∃ token t, Issue.credential bothAlgorithms
        (labelledSigner Signer.zeroPrivateKey "é" "Ed25519") (namedCredential (.int 0))
        .initial = (.ok token, t) := Run.exists_of_isOk (by decide +kernel)
    refine ⟨token, t, hissue, fun hread => ?_⟩
    have hsubject := ((exists_readCredential_iff (ofKey_labelledSigner _ _ _) (by decide +kernel)
      hissue).mp hread).2
    rcases hsubject with htruthy | hempty
    · cases htruthy
    · cases hempty

end Verify

end Attest
