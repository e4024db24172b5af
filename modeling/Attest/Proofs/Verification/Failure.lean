import Attest.Proofs.Key.Unreadable
import Attest.Proofs.Resolution.Answers
import Attest.Proofs.Token.Failure
import Attest.Proofs.Verification.Embedded
import Attest.Proofs.Verification.Order

/-! The errors with which a credential is refused. All of them are about the verification or about the
resolution of the issuer, but for four exceptions: a token that is not reported as unreadable, a header in
which the identifier of the key is no text, a key that lacks a text for one of its numbers, and a proof
whose type has too many digits for a message. -/

namespace Attest

/-- An error with which a verification may end. -/
def Error.IsRefusal (e : Error) : Prop :=
  e.kind.isA .verification = true ∨ e.kind.isA .resolution = true

theorem ErrorKind.isA_library {k : ErrorKind}
    (h : k.isA .verification = true ∨ k.isA .resolution = true) : k.isA .library = true := by
  cases k <;> first | rfl | simp [isA, ancestors] at h

theorem Error.not_isRefusal_basic (e : BasicError) : ¬(Error.basic e).IsRefusal := by
  intro h
  exact Bool.false_ne_true (e.kind_isA_library.symm.trans (ErrorKind.isA_library h))

namespace Verify

variable {r : Jws.Registry} {context : Option Context} {resolver : Resolver} {s t : Session}

theorem chooseMethod_eq_error {document : Document} {kid issuer : Value} {e : Error}
    (hdocument : document.IsTyped) (h : chooseMethod document kid issuer = .error e) :
    e.IsRefusal ∨ (kid.isTruthy = true ∧ kid.isText = false ∧ document.methods ≠ []) := by
  unfold chooseMethod at h
  split at h
  · rename_i hkid
    split at h
    · rename_i f hf
      exact .inr ⟨hkid, (Document.findMethod_eq_error_iff hdocument.ids).mp ⟨f, hf⟩⟩
    · cases h
    · obtain rfl := Except.error.inj h
      exact .inl (.inl rfl)
  · split at h
    · cases h
    · obtain rfl := Except.error.inj h
      exact .inl (.inl rfl)

theorem chooseMethod_of_not_isText {document : Document} {kid issuer : Value}
    (hdocument : document.IsTyped) (hkid : kid.isTruthy = true) (htext : kid.isText = false)
    (hmethods : document.methods ≠ []) :
    ∃ f, chooseMethod document kid issuer = .error (.ofFault f) := by
  obtain ⟨f, hf⟩ := (Document.findMethod_eq_error_iff hdocument.ids).mpr ⟨htext, hmethods⟩
  refine ⟨f, ?_⟩
  unfold chooseMethod Document.method?
  rw [if_pos hkid, hf]

theorem methodVerifier_eq_error {issuer : Value} {m : VerificationMethod} {e : Error}
    (hkey : m.publicKeyJwk = .null ∨ ∃ o, m.publicKeyJwk = .object o)
    (h : methodVerifier r issuer m = .error e) :
    e.IsRefusal ∨ ∃ o, m.publicKeyJwk = .object o ∧ Jwk.Unreadable o := by
  unfold methodVerifier at h
  split at h
  · rename_i htruthy
    obtain ⟨o, ho⟩ : ∃ o, m.publicKeyJwk = .object o := by
      refine hkey.resolve_left fun hnull => ?_
      rw [hnull] at htruthy
      cases htruthy
    obtain ⟨k, hk, rfl⟩ := Except.mapError_eq_error_iff.mp h
    unfold Verifier.ofJwk at hk
    rw [ho, Except.bind_eq_error_iff] at hk
    rcases hk with hk | ⟨_, -, hk⟩
    · rcases PublicKey.ofJwk_eq_error hk with hbad | hunreadable
      · rw [if_pos hbad]
        exact .inl (.inl rfl)
      · exact .inr ⟨o, ho, hunreadable⟩
    · cases hk
  · obtain rfl := Except.error.inj h
    exact .inl (.inl rfl)

theorem methodVerifier_of_unreadable {issuer : Value} {m : VerificationMethod} {o : Object}
    (ho : m.publicKeyJwk = .object o) (h : Jwk.Unreadable o) :
    ∃ e, methodVerifier r issuer m = .error (.ofKey e) := by
  have htruthy : m.publicKeyJwk.isTruthy = true := by
    rw [ho]
    cases o with
    | nil => rcases h with ⟨c, hcurve, -⟩ | ⟨x, hcurve, -, -⟩ <;> cases hcurve
    | cons m rest => rfl
  obtain ⟨e, he, hkind⟩ := PublicKey.ofJwk_of_unreadable h
  refine ⟨e, ?_⟩
  unfold methodVerifier Verifier.ofJwk
  rw [if_pos htruthy, ho, he]
  change Except.error (if e.kind.isA .badValue = true then _ else _) = _
  rw [if_neg (by rw [hkind]; exact Bool.false_ne_true)]

theorem verify_eq_error {id kid token : Value} {key : PublicKey} {e : Error}
    (h : (Verifier.ofKey r id (.key key) kid).verify token = .error e) : e.IsRefusal := by
  obtain ⟨_, -, rfl⟩ := Except.mapError_eq_error_iff.mp h
  exact .inl rfl

/-- What is left to do with a token when the document of its issuer is there. -/
def withDocument (r : Jws.Registry) (document : Document) (read : ReadCredential) (token : Value) :
    Run Unit := do
  let method ← Run.ofExcept (chooseMethod document read.token.kid read.credential.issuer)
  let verifier ← Run.ofExcept (methodVerifier r read.credential.issuer method)
  Run.ofExcept (verifier.verify token)

section Stages

variable {token : Value} {read : ReadCredential}

theorem credentialToken_of_unread {e : Error} (h : readCredential token = .error e) :
    credentialToken r context (some resolver) token s = (.error e, s) := by
  unfold credentialToken
  rw [h, Run.ofExcept_bind_error]

theorem credentialToken_of_noIssuer (hread : readCredential token = .ok read)
    (hissuer : read.credential.issuer.isTruthy = false) :
    credentialToken r context (some resolver) token s = (.error (.credential .noIssuer), s) := by
  unfold credentialToken
  rw [hread, Run.ofExcept_bind_ok]
  simp only [hissuer, Bool.not_false, if_true]
  exact Run.bind_of_error rfl

theorem credentialToken_of_issuer (hread : readCredential token = .ok read)
    (hissuer : read.credential.issuer.isTruthy = true) :
    credentialToken r context (some resolver) token s = (do
      let document ← Resolver.ask (some resolver) context read.credential.issuer
      withDocument r document read token : Run Unit) s := by
  unfold credentialToken
  rw [hread, Run.ofExcept_bind_ok]
  simp only [hissuer, Bool.not_true, Bool.false_eq_true, if_false]
  rfl

end Stages

theorem askedFor?_of_issuer {v : Value} {read : ReadCredential}
    (hread : readCredential v = .ok read) (hissuer : read.credential.issuer.isTruthy = true) :
    askedFor? v = some read.credential.issuer := by
  unfold askedFor?
  rw [hread]
  exact if_pos hissuer

/-- A credential is a token that is read, and a resolver gives the document of its issuer. -/
structure Reaches (context : Option Context) (resolver : Resolver) (v : Value) (s : Session)
    (read : ReadCredential) (document : Document) (t : Session) : Prop where
  reads : readCredential v = .ok read
  issuer : read.credential.issuer.isTruthy = true
  gives : resolver.Gives context read.credential.issuer s document t

/-- A credential that is no token has a proof, perhaps the missing one. -/
inductive HasProof : Value → Value → Prop
  | credential (c : Credential) : HasProof (.credential c) c.proof
  | object (o : Object) : HasProof (.object o) (Object.getD o "proof")

/-- A credential that is refused with an error with which no verification should end. -/
inductive Escapes (context : Option Context) (resolver : Resolver) (v : Value) (s : Session) : Prop
  | token (text : String) (hv : v = .text text) (h : ParsedToken.Escapes text)
  | kid (read : ReadCredential) (document : Document) (t : Session)
      (h : Reaches context resolver v s read document t) (hkid : read.token.kid.isTruthy = true)
      (htext : read.token.kid.isText = false) (hmethods : document.methods ≠ [])
  | key (read : ReadCredential) (document : Document) (t : Session) (m : VerificationMethod)
      (o : Object) (h : Reaches context resolver v s read document t)
      (hchooses : document.Chooses read.token.kid m) (ho : m.publicKeyJwk = .object o)
      (hunreadable : Jwk.Unreadable o)
  | proof (o : Object) (hproof : HasProof v (.object o))
      (hshowable : (Object.getD o "type").isShowable = false)

theorem Reaches.embedded_eq {v : Value} {read : ReadCredential} {document : Document}
    (h : Reaches context resolver v s read document t) :
    embedded r context (some resolver) v s = withDocument r document read v t := by
  obtain ⟨text, rfl, -⟩ := ParsedToken.ofValue_eq_ok_iff.mp (readCredential_eq_ok_iff.mp h.reads).1
  refine (credentialToken_of_issuer h.reads h.issuer).trans ?_
  exact Run.bind_of_ok (Resolver.ask_eq_ok_iff.mpr ⟨resolver, rfl, h.gives⟩)

/-- The resolver that is asked has answered with such a document. -/
theorem Reaches.isTyped {v : Value} {read : ReadCredential} {document : Document}
    (h : Reaches context resolver v s read document t)
    (hresolver : ∀ did, askedFor? v = some did → resolver.Answers context did s) :
    document.IsTyped := by
  obtain ⟨u, hresolve, -⟩ := h.gives
  exact (hresolver _ (askedFor?_of_issuer h.reads h.issuer)).typed _ _ hresolve

theorem withDocument_eq_error {document : Document} {read : ReadCredential} {token : Value}
    {e : Error} (hdocument : document.IsTyped)
    (h : withDocument r document read token s = (.error e, t)) :
    e.IsRefusal ∨
      (read.token.kid.isTruthy = true ∧ read.token.kid.isText = false ∧ document.methods ≠ []) ∨
      ∃ m o, document.Chooses read.token.kid m ∧ m.publicKeyJwk = .object o ∧ Jwk.Unreadable o := by
  unfold withDocument at h
  rw [Run.bind_eq_error_iff] at h
  rcases h with h | ⟨m, _, hrun, h⟩
  · exact (chooseMethod_eq_error hdocument (Run.ofExcept_eq_iff.mp h).1).imp_right .inl
  have hchooses := chooseMethod_eq_ok_iff.mp (Run.ofExcept_eq_ok_iff.mp hrun).1
  rw [Run.bind_eq_error_iff] at h
  rcases h with h | ⟨verifier, _, hrun, h⟩
  · rcases methodVerifier_eq_error (hdocument.keys m hchooses.mem) (Run.ofExcept_eq_iff.mp h).1 with
      hrefusal | ⟨o, ho, hunreadable⟩
    · exact .inl hrefusal
    · exact .inr (.inr ⟨m, o, hchooses, ho, hunreadable⟩)
  obtain ⟨key, -, rfl⟩ := methodVerifier_eq_ok (Run.ofExcept_eq_ok_iff.mp hrun).1
  exact .inl (verify_eq_error (Run.ofExcept_eq_iff.mp h).1)

/-- Each stage of the verification of a token fails with a refusal, but for the three exceptions. -/
theorem credentialToken_eq_error {text : String} {e : Error}
    (hresolver : ∀ did, askedFor? (.text text) = some did → resolver.Answers context did s)
    (h : credentialToken r context (some resolver) (.text text) s = (.error e, t)) :
    e.IsRefusal ∨ Escapes context resolver (.text text) s := by
  cases hread : readCredential (.text text) with
  | error f =>
    rw [credentialToken_of_unread hread] at h
    obtain rfl := Except.error.inj (Prod.mk.inj h).1
    rcases readCredential_eq_error hread with hkind | hescapes
    · exact .inl (.inl (by rw [hkind]; rfl))
    · exact .inr (.token text rfl hescapes)
  | ok read =>
    cases hissuer : read.credential.issuer.isTruthy with
    | false =>
      rw [credentialToken_of_noIssuer hread hissuer] at h
      obtain rfl := Except.error.inj (Prod.mk.inj h).1
      exact .inl (.inl rfl)
    | true =>
      rw [credentialToken_of_issuer hread hissuer, Run.bind_eq_error_iff] at h
      rcases h with h | ⟨document, u, hask, h⟩
      · obtain ⟨_, hrefusal⟩ := Resolver.ask_eq_error h
        have hanswers := hresolver _ (askedFor?_of_issuer hread hissuer)
        exact .inl (.inr (hanswers.refusal _ _ hrefusal))
      · obtain ⟨_, ⟨⟩, hgives⟩ := Resolver.ask_eq_ok_iff.mp hask
        have hreaches : Reaches context resolver (.text text) s read document u :=
          ⟨hread, hissuer, hgives⟩
        rcases withDocument_eq_error (hreaches.isTyped hresolver) h with
          hrefusal | ⟨hkid, htext, hmethods⟩ | ⟨m, o, hchooses, ho, hunreadable⟩
        · exact .inl hrefusal
        · exact .inr (.kid read document u hreaches hkid htext hmethods)
        · exact .inr (.key read document u m o hreaches hchooses ho hunreadable)

theorem embedded_of_hasProof {v proof : Value} (h : HasProof v proof) :
    embedded r context (some resolver) v s = (.error (proofError proof), s) := by
  cases h with
  | credential c => rfl
  | object o => rfl

theorem isRefusal_proofError (proof : Value) :
    (proofError proof).IsRefusal ∨
      ∃ o, proof = .object o ∧ (Object.getD o "type").isShowable = false := by
  cases proof with
  | object o =>
    cases hshowable : (Object.getD o "type").isShowable with
    | false => exact .inr ⟨o, rfl, hshowable⟩
    | true =>
      rw [proofError, hshowable]
      exact .inl (.inl rfl)
  | _ => exact .inl (.inl rfl)

theorem proofError_of_not_isShowable {o : Object}
    (h : (Object.getD o "type").isShowable = false) :
    proofError (.object o) = .basic (.write .tooManyDigits) := by
  rw [proofError, h]
  exact if_neg Bool.false_ne_true

/-- A credential that is no token is refused as such, or for its proof. -/
theorem embedded_eq_error {v : Value} {e : Error}
    (hresolver : ∀ did, askedFor? v = some did → resolver.Answers context did s)
    (h : embedded r context (some resolver) v s = (.error e, t)) :
    e.IsRefusal ∨ Escapes context resolver v s := by
  have hproof {proof : Value} (hp : HasProof v proof) :
      e.IsRefusal ∨ Escapes context resolver v s := by
    rw [embedded_of_hasProof hp] at h
    obtain rfl := Except.error.inj (Prod.mk.inj h).1
    rcases isRefusal_proofError proof with hrefusal | ⟨o, rfl, hshowable⟩
    · exact .inl hrefusal
    · exact .inr (.proof o hp hshowable)
  cases v with
  | text text => exact credentialToken_eq_error hresolver h
  | credential c => exact hproof (.credential c)
  | object o => exact hproof (.object o)
  | _ =>
    obtain rfl := Except.error.inj (Prod.mk.inj h).1
    exact .inl (.inl rfl)

theorem embedded_of_escapes {v : Value}
    (hresolver : ∀ did, askedFor? v = some did → resolver.Answers context did s)
    (h : Escapes context resolver v s) :
    ∃ e t, embedded r context (some resolver) v s = (.error e, t) ∧ ¬e.IsRefusal := by
  cases h with
  | token text hv h =>
    subst hv
    obtain ⟨e, he⟩ := ParsedToken.ofText_of_escapes h
    have hread : readCredential (.text text) = .error (.basic e) :=
      readCredential_eq_error_iff.mpr (.inl he)
    exact ⟨.basic e, s, credentialToken_of_unread hread, Error.not_isRefusal_basic e⟩
  | kid read document t h hkid htext hmethods =>
    obtain ⟨f, hf⟩ := chooseMethod_of_not_isText (h.isTyped hresolver) hkid htext hmethods
    refine ⟨.ofFault f, t, ?_, Error.not_isRefusal_basic _⟩
    rw [h.embedded_eq, withDocument, hf, Run.ofExcept_bind_error]
  | key read document t m o h hchooses ho hunreadable =>
    obtain ⟨e, he⟩ := methodVerifier_of_unreadable ho hunreadable
    refine ⟨.ofKey e, t, ?_, Error.not_isRefusal_basic _⟩
    rw [h.embedded_eq, withDocument, chooseMethod_eq_ok_iff.mpr hchooses, Run.ofExcept_bind_ok, he,
      Run.ofExcept_bind_error]
  | proof o hproof hshowable =>
    refine ⟨.basic (.write .tooManyDigits), s, ?_, Error.not_isRefusal_basic _⟩
    rw [embedded_of_hasProof hproof, proofError_of_not_isShowable hshowable]

/-- With a resolver that answers, every credential that is refused is refused with an error about the
verification or about the resolution exactly if it does not escape. -/
theorem failures_refusal_iff {v : Value}
    (hresolver : ∀ did, askedFor? v = some did → resolver.Answers context did s) :
    (∀ e t, embedded r context (some resolver) v s = (.error e, t) → e.IsRefusal) ↔
      ¬Escapes context resolver v s := by
  constructor
  · intro h hescapes
    obtain ⟨e, t, he, hrefusal⟩ := embedded_of_escapes (r := r) hresolver hescapes
    exact hrefusal (h e t he)
  · intro h e t he
    exact (embedded_eq_error hresolver he).resolve_right h

theorem askedFor?_eq_text {v : Value} {did : String}
    (h : (askedFor? v).bind Value.text? = some did) : askedFor? v = some (.text did) := by
  obtain ⟨w, hw, htext⟩ := Option.bind_eq_some_iff.mp h
  rw [hw]
  cases w with
  | text s => exact congrArg _ (congrArg _ (Option.some.inj htext))
  | _ => cases htext

/-- The table with the document `zeroDocument` and any object for its key answers for the issuer `a`. -/
theorem answers_zeroDocument {v : Value} (hv : (askedFor? v).bind Value.text? = some "a")
    (jwk : Object) (did : Value) (hdid : askedFor? v = some did) :
    (Resolver.ofTable [("a", ⟨.text "a", [⟨.text "a#key", .text "JsonWebKey2020", .text "a",
      .object jwk⟩]⟩)]).Answers none did .initial := by
  obtain rfl : Value.text "a" = did := Option.some.inj ((askedFor?_eq_text hv).symm.trans hdid)
  refine Resolver.answers_ofTable (fun d hd => ?_) "a" .initial
  obtain rfl := List.mem_singleton.mp hd
  constructor
  · intro m hm
    obtain rfl := List.mem_singleton.mp hm
    rfl
  · intro m hm
    obtain rfl := List.mem_singleton.mp hm
    exact .inr ⟨jwk, rfl⟩

theorem failures_refusal_zeroToken :
    (∀ did, askedFor? (.text zeroToken) = some did →
      (Resolver.ofTable [("a", zeroDocument)]).Answers none did .initial) ∧
    ¬Escapes none (.ofTable [("a", zeroDocument)]) (.text zeroToken) .initial := by
  have hanswers : ∀ did, askedFor? (.text zeroToken) = some did →
      (Resolver.ofTable [("a", zeroDocument)]).Answers none did .initial :=
    answers_zeroDocument (by decide +kernel) zeroKey.toJwk
  refine ⟨hanswers, (failures_refusal_iff (r := [.edDsa]) hanswers).mp ?_⟩
  intro e t he
  obtain ⟨_, u, hok⟩ : ∃ a u, embedded [.edDsa] none (some (.ofTable [("a", zeroDocument)]))
      (.text zeroToken) .initial = (.ok a, u) := Run.exists_of_isOk (by decide +kernel)
  rw [hok] at he
  cases he

/-- A token of the issuer `a` whose header has a number for the identifier of the key. -/
def numberKidToken : String := "eyJhbGciOiJFUzI1NiIsImtpZCI6NX0.eyJpc3MiOiJhIiwidmMiOnt9fQ."

/-- A token of this issuer whose header does not identify the key. -/
def noKidToken : String := "eyJhbGciOiJFUzI1NiJ9.eyJpc3MiOiJhIiwidmMiOnt9fQ."

/-- The document of this issuer with a key that lacks its number. -/
def numberlessDocument : Document :=
  ⟨.text "a", [⟨.text "a#key", .text "JsonWebKey2020", .text "a",
    .object [("kty", .text "OKP"), ("crv", .text "Ed25519")]⟩]⟩

/-- Neither of these is refused with an error about the verification or the resolution. -/
theorem not_isRefusal_numberKid :
    ((∀ did, askedFor? (.text numberKidToken) = some did →
        (Resolver.ofTable [("a", zeroDocument)]).Answers none did .initial) ∧
      ∃ e t, embedded [.edDsa] none (some (.ofTable [("a", zeroDocument)])) (.text numberKidToken)
        .initial = (.error e, t) ∧ e.kind = .missingAttribute ∧ ¬e.IsRefusal) ∧
    (∀ did, askedFor? (.text noKidToken) = some did →
        (Resolver.ofTable [("a", numberlessDocument)]).Answers none did .initial) ∧
      ∃ e t, embedded [.edDsa] none (some (.ofTable [("a", numberlessDocument)]))
        (.text noKidToken) .initial = (.error e, t) ∧ e.kind = .missingMember ∧ ¬e.IsRefusal := by
  have hrefusal {e : Error} {k : ErrorKind} (hkind : e.kind = k)
      (hk : k.isA .library = false) : ¬e.IsRefusal := by
    intro h
    rw [Error.IsRefusal, hkind] at h
    exact Bool.false_ne_true (hk.symm.trans (ErrorKind.isA_library h))
  refine ⟨⟨answers_zeroDocument (by decide +kernel) zeroKey.toJwk, ?_⟩,
    answers_zeroDocument (by decide +kernel) _, ?_⟩
  · obtain ⟨e, t, he, hkind⟩ : ∃ e t, embedded [.edDsa] none
        (some (.ofTable [("a", zeroDocument)])) (.text numberKidToken) .initial = (.error e, t) ∧
        e.kind = .missingAttribute := Run.exists_of_error? (by decide +kernel)
    exact ⟨e, t, he, hkind, hrefusal hkind rfl⟩
  · obtain ⟨e, t, he, hkind⟩ : ∃ e t, embedded [.edDsa] none
        (some (.ofTable [("a", numberlessDocument)])) (.text noKidToken) .initial = (.error e, t) ∧
        e.kind = .missingMember := Run.exists_of_error? (by decide +kernel)
    exact ⟨e, t, he, hkind, hrefusal hkind rfl⟩

end Verify

end Attest
