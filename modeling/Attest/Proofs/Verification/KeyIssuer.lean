import Attest.Issue
import Attest.Proofs.Claims.Promoted
import Attest.Proofs.Resolution.Key
import Attest.Proofs.Token.Accepted

/-! Credentials whose issuer is the identifier of a key: what the holder of the key signs is accepted by
whoever knows no more than the identifier, except for a subject that is false or zero. -/

namespace Attest

namespace Issue

/-- The token of a credential is its claim set, signed with the key that the signer holds. -/
theorem credential_signs {w : Surroundings} {ecdsa : Crypto.P256.Signatures}
    {id kid algorithm : Value} {key : PrivateKey} {signer : Signer} {c : Credential}
    {token : String} {s t : Session}
    (hsigner : Signer.ofKey w.registry ecdsa id (.key key) kid algorithm = .ok signer)
    (h : credential w signer c s = (.ok token, t)) :
    ∃ claims header a, Claims.ofCredential w.nonce c = .ok claims ∧
      signer.header w.registry = .ok header ∧
      Signer.Signs w.registry ecdsa key a claims header token := by
  unfold credential signClaims at h
  simp only [Run.bind_eq_ok_iff, Run.ofExcept_eq_ok_iff, Except.mapError_eq_ok_iff] at h
  obtain ⟨claims, _, ⟨hclaims, -⟩, header, _, ⟨hheader, -⟩, _, _, -, hsign, -⟩ := h
  obtain ⟨k, a, ⟨⟩, hsigns⟩ := Signer.signs_of_sign hsigner hheader hsign
  exact ⟨claims, header, a, hclaims, hheader, hsigns⟩

theorem parsed_credential {w : Surroundings} {ecdsa : Crypto.P256.Signatures} {signer : Signer}
    {key : PrivateKey} {a : Jws.Algorithm} {c : Credential} {claims : Claims} {header : Object}
    {token : String}
    (hclaims : Claims.ofCredential w.nonce c = .ok claims)
    (hheader : signer.header w.registry = .ok header)
    (hsigns : Signer.Signs w.registry ecdsa key a claims header token)
    (hwell : (Value.credential c).WellFormed)
    (hlimits : Jws.WithinLimits (Text.Utf8.encode token.toList)) :
    ParsedToken.ofValue (.text token) = .ok ⟨token, header, claims⟩ := by
  have hsound := Claims.sound_of_ofCredential hclaims hwell
  exact ParsedToken.ofValue_eq_ok_iff.mpr ⟨token, rfl, ParsedToken.ofText_eq_ok_iff.mpr
    ⟨_, hsigns.readFrom hheader hsound.wellFormed hsound.audience hlimits⟩⟩

end Issue

namespace Signer

theorem kid_of_ofKey {r : Jws.Registry} {ecdsa : Crypto.P256.Signatures} {id kid algorithm : Value}
    {key : Held PrivateKey} {signer : Signer} (h : ofKey r ecdsa id key kid algorithm = .ok signer) :
    signer.kid = kid := by
  obtain ⟨label, -, h⟩ := Except.bind_eq_ok_iff.mp h
  rw [← Except.ok.inj h]

theorem isTruthy_kid_or_eq {r : Jws.Registry} {signer : Signer} {header : Object}
    (h : signer.header r = .ok header) :
    (Object.getD header "kid").isTruthy = false ∨ Object.getD header "kid" = signer.kid := by
  obtain ⟨algorithm, -, rfl⟩ := header_eq_ok h
  split
  · exact .inr rfl
  · exact .inl rfl

end Signer

namespace Verify

variable {r : Jws.Registry} {context : Option Context} {resolver : Option Resolver} {s t : Session}

theorem credentialToken_of_stages {token : Value} {read : ReadCredential} {document : Document}
    {m : VerificationMethod} {verifier : Verifier} (hread : readCredential token = .ok read)
    (hissuer : read.credential.issuer.isTruthy = true)
    (hask : Resolver.ask resolver context read.credential.issuer s = (.ok document, t))
    (hmethod : chooseMethod document read.token.kid read.credential.issuer = .ok m)
    (hverifier : methodVerifier r read.credential.issuer m = .ok verifier)
    (hverify : verifier.verify token = .ok ()) :
    credentialToken r context resolver token s = (.ok (), t) := by
  unfold credentialToken
  simp only [hread, Run.ofExcept_bind_ok, hissuer, Bool.not_true, Bool.false_eq_true, if_false]
  rw [Run.bind_of_ok hask]
  simp only [hmethod, Run.ofExcept_bind_ok, hverifier, hverify, Run.ofExcept_apply]

theorem methodVerifier_method (r : Jws.Registry) (issuer : Value) (key : PublicKey) (did : String) :
    methodVerifier r issuer (key.method did) =
      .ok (.ofKey r issuer (.key key) (.text (DidKey.verificationMethod did))) := by
  have htruthy : (Value.object key.toJwk).isTruthy = true := by cases key <;> rfl
  refine (if_pos htruthy).trans (Except.mapError_eq_ok_iff.mpr ?_)
  exact Verifier.ofJwk_eq_ok_iff.mpr ⟨key, PublicKey.ofJwk_toJwk key, rfl⟩

/-- A credential whose issuer is the identifier of a key, signed with this key, passes with the
resolver of such identifiers in every context that is still open, unless its subject is false or
zero. Whichever signature the key gives, it need only verify. -/
theorem embedded_of_issue {w : Surroundings} {ecdsa : Crypto.P256.Signatures} {signerId kid : Value}
    {key : PrivateKey} {signer : Signer} {c : Credential} {token : String} {before after : Session}
    (hsigner : Signer.ofKey w.registry ecdsa signerId (.key key) kid .null = .ok signer)
    (hkid : kid.isTruthy = false ∨
      kid = .text (DidKey.verificationMethod (DidKey.encode key.publicKey)) ∨
      kid = .text (DidKey.fragment key.publicKey))
    (hissuer : c.issuer = .text (DidKey.encode key.publicKey))
    (hsubject : c.subject.isTruthy = true ∨ c.subject.isEmpty = true)
    (hwell : (Value.credential c).WellFormed)
    (hissue : Issue.credential w signer c before = (.ok token, after))
    (hlimits : Jws.WithinLimits (Text.Utf8.encode token.toList))
    (hsignature : key.publicKey.verify (Jws.signedPartOf (Text.Utf8.encode token.toList))
      (key.sign ecdsa (Jws.signedPartOf (Text.Utf8.encode token.toList))) = true)
    (hcontext : ∀ x, context = some x → x.IsOpen s) :
    ∃ t, embedded w.registry context (some .ofKeys) (.text token) s = (.ok (), t) := by
  obtain ⟨claims, header, a, hclaims, hheader, hsigns⟩ := Issue.credential_signs hsigner hissue
  have hparsed := Issue.parsed_credential hclaims hheader hsigns hwell hlimits
  obtain ⟨d, hd, hdissuer⟩ :=
    Claims.exists_toCredential hclaims hissuer (DidKey.encode_ne_empty _) hsubject
  have hread : readCredential (.text token) = .ok ⟨⟨token, header, claims⟩, d⟩ :=
    readCredential_eq_ok_iff.mpr ⟨hparsed, hd⟩
  have hdtruthy : d.issuer.isTruthy = true := by
    rw [hdissuer, Value.isTruthy_text]
    exact decide_eq_true (DidKey.encode_ne_empty _)
  obtain ⟨t, hask⟩ := Resolver.ask_ofKeys hcontext key.publicKey
  have hnamed : (Object.getD header "kid").isTruthy = false ∨ Object.getD header "kid" = kid :=
    Signer.kid_of_ofKey hsigner ▸ Signer.isTruthy_kid_or_eq hheader
  have hchooses := Document.chooses_method key.publicKey
    (hnamed.elim .inl fun h => h.symm ▸ hkid)
  obtain ⟨hsome, hchosen⟩ := hsigns.chosen hsigner hheader
  have haccepted := hsigns.issued.accepted
    (Signer.wellFormed_header hheader hsigns.issued.checked hsigns.issued.named)
    (Signer.isRawPayload_header hheader) hlimits hsome hchosen hsignature
  exact ⟨t, credentialToken_of_stages hread hdtruthy (hdissuer ▸ hask)
    (chooseMethod_eq_ok_iff.mpr hchooses) (methodVerifier_method _ _ _ _)
    (Verifier.ofKey_verify_eq_ok_iff.mpr haccepted)⟩

/-- A credential whose subject is false or zero is signed, but its token is refused: when it is read,
its subject must be an object. -/
theorem refuses_falseSubject {w : Surroundings} {ecdsa : Crypto.P256.Signatures}
    {signerId kid algorithm : Value} {key : PrivateKey} {signer : Signer} {c : Credential}
    {token : String} {before after : Session}
    (hsigner : Signer.ofKey w.registry ecdsa signerId (.key key) kid algorithm = .ok signer)
    (hfalse : c.subject.isTruthy = false) (hgiven : c.subject.isEmpty = false)
    (hwell : (Value.credential c).WellFormed)
    (hissue : Issue.credential w signer c before = (.ok token, after))
    (hlimits : Jws.WithinLimits (Text.Utf8.encode token.toList)) :
    embedded r context resolver (.text token) s =
      (.error (.token (.content .credential (.subjectNotObject c.subject.typeName))), s) := by
  obtain ⟨claims, header, a, hclaims, hheader, hsigns⟩ := Issue.credential_signs hsigner hissue
  have hparsed := Issue.parsed_credential hclaims hheader hsigns hwell hlimits
  have hrefused := Claims.toCredential_of_falseSubject hclaims hfalse hgiven
  have hread : readCredential (.text token) =
      .error (.token (.content .credential (.subjectNotObject c.subject.typeName))) := by
    unfold readCredential
    rw [hparsed]
    show (claims.toCredential >>= fun d => Except.ok (ReadCredential.mk _ d)) = _
    rw [hrefused]
    rfl
  show credentialToken r context resolver (.text token) s = _
  unfold credentialToken
  rw [hread, Run.ofExcept_bind_error]

theorem isTruthy_fragment (key : PublicKey) : (Value.text (DidKey.fragment key)).isTruthy = true := by
  rw [Value.isTruthy_text, decide_eq_true_eq]
  intro h
  have := congrArg String.toList h
  rw [DidKey.fragment, String.toList_append] at this
  cases this

/-- What is asked of the token for a claim set under a key with the nonce 2, which can be computed from the
header and the claims. -/
def IsWellSigned (key : PrivateKey) (header : Object) (claims : Claims) : Prop :=
  let text := Jws.signedText header (Text.Utf8.encode (Json.chars .spaced (.object claims)))
  Jws.WithinLimits (text ++ Jws.dot :: Jws.segment (key.sign (.ofNonce 2) text)) ∧
    key.publicKey.verify text (key.sign (.ofNonce 2) text) = true

instance (key : PrivateKey) (header : Object) (claims : Claims) :
    Decidable (IsWellSigned key header claims) := inferInstanceAs (Decidable (_ ∧ _))

theorem limits_and_signature_of_isWellSigned {key : PrivateKey} {a : Jws.Algorithm}
    {claims header : Object} {token : String}
    (hsigns : Signer.Signs r (.ofNonce 2) key a claims header token) (hsome : a ≠ .none)
    (h : IsWellSigned key header claims) : Jws.WithinLimits (Text.Utf8.encode token.toList) ∧
      key.publicKey.verify (Jws.signedPartOf (Text.Utf8.encode token.toList))
        (key.sign (.ofNonce 2) (Jws.signedPartOf (Text.Utf8.encode token.toList))) = true := by
  rw [hsigns.issued.bytes_of_signs hsome, Jws.signedPartOf_append (Jws.dot_not_mem_segment _)]
  exact h

/-- The algorithms of both kinds of keys, at the epoch. -/
def bothAlgorithms : Surroundings := ⟨[.es256, .edDsa], "n", .int 0⟩

/-- The signer who holds a key, names it by its identifier's fragment, and draws the nonce 2. -/
def fragmentSigner (key : PrivateKey) : Signer :=
  ⟨.null, .text (DidKey.fragment key.publicKey), .text key.algorithm,
    Signer.signWith [.es256, .edDsa] (.ofNonce 2) (.key key)⟩

theorem ofKey_fragmentSigner (key : PrivateKey) :
    Signer.ofKey bothAlgorithms.registry (.ofNonce 2) .null (.key key)
      (.text (DidKey.fragment key.publicKey)) .null = .ok (fragmentSigner key) := rfl

def fragmentHeader (key : PrivateKey) : Object :=
  [("alg", .text key.algorithm), ("typ", .text "JWT"),
    ("kid", .text (DidKey.fragment key.publicKey))]

theorem header_fragmentSigner (key : PrivateKey) :
    (fragmentSigner key).header bothAlgorithms.registry = .ok (fragmentHeader key) := by
  have hkid : (fragmentSigner key).kid.isTruthy = true := isTruthy_fragment _
  unfold Signer.header
  rw [if_pos hkid]
  cases key <;> rfl

/-- A credential whose issuer is the identifier of a key. -/
def issuedBy (key : PrivateKey) (subject : Value) : Credential :=
  { Credential.empty with
    issuer := .text (DidKey.encode key.publicKey)
    subject := subject }

def issuedClaims (key : PrivateKey) (subject : Value) (subjectId : String) : Claims :=
  Claims.promoted "n" (issuedBy key subject) .null (.text (DidKey.encode key.publicKey)) .null .null
    .null subjectId

theorem ofCredential_issuedBy {key : PrivateKey} {subject : Value} {subjectId : String}
    (h : (issuedBy key subject).subjectId = .ok subjectId) :
    Claims.ofCredential "n" (issuedBy key subject) = .ok (issuedClaims key subject subjectId) := by
  have hissuer : ¬(issuedBy key subject).issuer.isEmpty = true := by
    intro hempty
    exact DidKey.encode_ne_empty _ (String.isEmpty_iff.mp hempty)
  have hnonempty : (issuedBy key subject).isEmpty = false :=
    List.all_eq_false.mpr ⟨.issuer, Credential.Field.mem_all _, hissuer⟩
  exact Claims.ofCredential_eq_ok_iff.mpr ⟨hnonempty, rfl, .null, _, .null, .null, .null, subjectId,
    nofun, fun _ => (Claims.normalize_name rfl).mpr ⟨rfl, rfl⟩, nofun, nofun, nofun, h, rfl⟩

/-- What is asked of the token of a credential of this signer is computed from the claim set. -/
theorem exists_token_issuedBy (key : PrivateKey) (subject : Value) (subjectId : String)
    (hid : (issuedBy key subject).subjectId = .ok subjectId)
    (hsigned : IsWellSigned key (fragmentHeader key) (issuedClaims key subject subjectId))
    (hok : Except.isOk (Issue.credential bothAlgorithms (fragmentSigner key) (issuedBy key subject)
      .initial).1 = true) :
    ∃ token t, Issue.credential bothAlgorithms (fragmentSigner key) (issuedBy key subject) .initial =
        (.ok token, t) ∧
      Jws.WithinLimits (Text.Utf8.encode token.toList) ∧
      key.publicKey.verify (Jws.signedPartOf (Text.Utf8.encode token.toList))
        (key.sign (.ofNonce 2) (Jws.signedPartOf (Text.Utf8.encode token.toList))) = true := by
  obtain ⟨token, t, hissue⟩ := Run.exists_of_isOk hok
  obtain ⟨claims, header, a, hclaims, hheader, hsigns⟩ :=
    Issue.credential_signs (ofKey_fragmentSigner key) hissue
  obtain rfl : issuedClaims key subject subjectId = claims :=
    Except.ok.inj ((ofCredential_issuedBy hid).symm.trans hclaims)
  have hsome := (hsigns.chosen (ofKey_fragmentSigner key) hheader).1
  obtain rfl := Except.ok.inj ((header_fragmentSigner key).symm.trans hheader)
  exact ⟨token, t, hissue, limits_and_signature_of_isWellSigned hsigns hsome hsigned⟩

/-- A token whose subject has an identifier passes before the deadline, with a key of either kind. -/
theorem embedded_issuedBy :
    (∃ token t u, Issue.credential bothAlgorithms (fragmentSigner (.p256 .one))
        (issuedBy (.p256 .one) (.object [("id", .text "b")])) .initial = (.ok token, t) ∧
      embedded bothAlgorithms.registry (some ⟨.int 1, false⟩) (some .ofKeys) (.text token) .initial =
        (.ok (), u)) ∧
    ∃ token t u, Issue.credential bothAlgorithms (fragmentSigner Signer.zeroPrivateKey)
        (issuedBy Signer.zeroPrivateKey (.object [("id", .text "b")])) .initial = (.ok token, t) ∧
      embedded bothAlgorithms.registry (some ⟨.int 1, false⟩) (some .ofKeys) (.text token) .initial =
        (.ok (), u) := by
  have hopen : ∀ x, some (⟨.int 1, false⟩ : Context) = some x → x.IsOpen .initial := by
    rintro _ ⟨⟩
    exact ⟨rfl, Run.exists_of_toOption (by decide +kernel)⟩
  have hpasses {key : PrivateKey}
      (hwell : (Value.credential (issuedBy key (.object [("id", .text "b")]))).WellFormed)
      (hsigned : IsWellSigned key (fragmentHeader key)
        (issuedClaims key (.object [("id", .text "b")]) "b"))
      (hok : Except.isOk (Issue.credential bothAlgorithms (fragmentSigner key)
        (issuedBy key (.object [("id", .text "b")])) .initial).1 = true) :
      ∃ token t u, Issue.credential bothAlgorithms (fragmentSigner key)
          (issuedBy key (.object [("id", .text "b")])) .initial = (.ok token, t) ∧
        embedded bothAlgorithms.registry (some ⟨.int 1, false⟩) (some .ofKeys) (.text token)
          .initial = (.ok (), u) := by
    obtain ⟨token, t, hissue, hlimits, hsignature⟩ := exists_token_issuedBy key _ "b" rfl hsigned hok
    obtain ⟨u, hpasses⟩ := embedded_of_issue (ofKey_fragmentSigner key) (.inr (.inr rfl)) rfl
      (.inl rfl) hwell hissue hlimits hsignature hopen
    exact ⟨token, t, u, hissue, hpasses⟩
  exact ⟨hpasses (by decide +kernel) (by decide +kernel) (by decide +kernel),
    hpasses (by decide +kernel) (by decide +kernel) (by decide +kernel)⟩

/-- A token whose subject is zero is within the limits and its signature verifies, but it is refused. -/
theorem refuses_zeroSubject :
    ∃ token t, Issue.credential bothAlgorithms (fragmentSigner Signer.zeroPrivateKey)
        (issuedBy Signer.zeroPrivateKey (.int 0)) .initial = (.ok token, t) ∧
      Jws.WithinLimits (Text.Utf8.encode token.toList) ∧
      Signer.zeroPrivateKey.publicKey.verify (Jws.signedPartOf (Text.Utf8.encode token.toList))
        (Signer.zeroPrivateKey.sign (.ofNonce 2)
          (Jws.signedPartOf (Text.Utf8.encode token.toList))) = true ∧
      embedded bothAlgorithms.registry none (some .ofKeys) (.text token) .initial =
        (.error (.token (.content .credential (.subjectNotObject "int"))), .initial) := by
  obtain ⟨token, t, hissue, hlimits, hsignature⟩ :=
    exists_token_issuedBy Signer.zeroPrivateKey (.int 0) "" rfl (by decide +kernel)
      (by decide +kernel)
  exact ⟨token, t, hissue, hlimits, hsignature,
    refuses_falseSubject (ofKey_fragmentSigner _) rfl rfl (by decide +kernel) hissue hlimits⟩

end Verify

end Attest
