import Attest.Proofs.Claims.Promoted
import Attest.Proofs.Issue.Presentation

/-! No value is carried twice: what has a claim of its own is missing from the object in the claim that
holds the credential or the presentation. The claims are made of the same values that are cleared, so
a value that counts as false is neither claimed nor cleared, and one that is empty is not written. -/

namespace Attest

namespace Value

theorem nonempty?_moved (v : Value) :
    v.moved.nonempty? = if v.isTruthy then none else v.nonempty? := by
  unfold moved
  split <;> rfl

theorem eq_null_of_isNull {v : Value} (h : v.isNull = true) : v = null := by
  cases v with
  | null => rfl
  | _ => cases h

end Value

namespace Claims

theorem nonempty?_moved_of_isTruthy {v : Value} (h : v.isTruthy = true) :
    v.moved.nonempty? = none := by
  rw [Value.nonempty?_moved, if_pos h]

theorem nonempty?_of_isNull {v : Value} (h : v.isNull = true) : v.nonempty? = none := by
  rw [Value.eq_null_of_isNull h]
  rfl

theorem isTruthy_of_contains {claims : Claims} {name : String} {v w : Value}
    (h : Object.get? claims name = if v.isTruthy then some w else none)
    (hcontains : Object.contains claims name = true) : v.isTruthy = true := by
  unfold Object.contains at hcontains
  rw [h] at hcontains
  split at hcontains
  · assumption
  · cases hcontains

/-- A subject that has an identifier is an object, of which the identifier is removed. -/
theorem movedId_of_identifier {c : Credential} {subjectId : String}
    (h : c.subjectId = .ok subjectId) (hid : (Value.text subjectId).isTruthy = true) :
    ∃ o, c.subject.movedId subjectId = .object (Object.erase o "id") := by
  have htruthy : c.subject.isTruthy = true := by
    by_contra hfalse
    unfold Credential.subjectId Credential.identifierOf at h
    rw [if_neg hfalse] at h
    obtain rfl := Except.ok.inj h
    cases hid
  obtain ⟨o, ho⟩ := isObject_of_subjectId h htruthy
  refine ⟨o, ?_⟩
  have hne : ¬subjectId.isEmpty = true := by
    simpa [Value.isTruthy, Value.isEmpty] using hid
  rw [ho, Value.movedId]
  exact if_neg hne

/-- A claim set and the object in its claim for a credential have no value twice. -/
structure CredentialOnce (claims : Claims) (o : Object) : Prop where
  issuer : Object.get? o "issuer" = none
  issuanceDate : Object.get? o "issuanceDate" = none
  proof : Object.get? o "proof" = none
  expirationDate : Object.contains claims "exp" = true → Object.get? o "expirationDate" = none
  id : Object.contains claims "jti" = true → Object.get? o "id" = none
  subject : Object.contains claims "sub" = true → ∀ v, Object.get? o "credentialSubject" = some v →
    ∃ subject, v = .object subject ∧ Object.get? subject "id" = none
  dates : Object.get? claims "iat" = Object.get? claims "nbf"

theorem credentialOnce_of_ofCredential {nonce : String} {c : Credential} {claims : Claims}
    (h : ofCredential nonce c = .ok claims) :
    ∃ o, Object.get? claims "vc" = some (.object o) ∧ CredentialOnce claims o := by
  obtain ⟨-, hproof, exp, iss, iat, nbf, jti, subjectId, -, -, hiat, hnbf, -, hsubject, rfl⟩ :=
    ofCredential_eq_ok_iff.mp h
  have hclaims := carries_promoted nonce c exp iss iat nbf jti subjectId
  have hnotBefore := get?_promoted_nbf nonce c exp iss iat nbf jti subjectId
  have hfield := Credential.get?_toObject (c.remainder subjectId)
  refine ⟨_, hclaims.credential, ?_⟩
  constructor
  · exact hfield .issuer
  · exact hfield .issuanceDate
  · exact (hfield .proof).trans (nonempty?_of_isNull hproof)
  · intro hexp
    exact (hfield .expirationDate).trans
      (nonempty?_moved_of_isTruthy (isTruthy_of_contains hclaims.expiration hexp))
  · intro hjti
    exact (hfield .id).trans (nonempty?_moved_of_isTruthy (isTruthy_of_contains hclaims.id hjti))
  · intro hsub v hv
    obtain ⟨subject, hmoved⟩ :=
      movedId_of_identifier hsubject (isTruthy_of_contains hclaims.subject hsub)
    have hv' : (c.subject.movedId subjectId).nonempty? = some v := (hfield .subject).symm.trans hv
    refine ⟨Object.erase subject "id", ?_, Object.get?_erase_self subject "id"⟩
    rw [← hmoved]
    exact (Value.nonempty?_eq_some hv').symm
  · rw [hclaims.issuance, hnotBefore]
    split
    · rename_i hdate
      rw [normalize_iat_nbf (hiat hdate) (hnbf hdate)]
    · rfl

/-- A claim set and the object in its claim for a presentation have no value twice. -/
structure PresentationOnce (claims : Claims) (o : Object) : Prop where
  holder : Object.contains claims "iss" = true → Object.get? o "holder" = none
  id : Object.contains claims "jti" = true → Object.get? o "id" = none
  proof : Object.get? o "proof" = none

theorem presentationOnce_of_presentationClaims {w : Surroundings} {signer : Signer}
    {terms : Option PresentationTerms} {p : Presentation} {claims : Claims}
    (h : Issue.presentationClaims w signer terms p = .ok claims) :
    ∃ o, Object.get? claims "vp" = some (.object o) ∧ PresentationOnce claims o := by
  obtain ⟨hproof, o, ho, hclaimed⟩ := Issue.claimed_of_presentationClaims h
  refine ⟨o, hclaimed.presentation, ?_⟩
  constructor
  · intro hiss
    exact (Presentation.get?_toObject ho (f := .holder) nofun).trans
      (nonempty?_moved_of_isTruthy (isTruthy_of_contains hclaimed.holder hiss))
  · intro hjti
    exact (Presentation.get?_toObject ho (f := .id) nofun).trans
      (nonempty?_moved_of_isTruthy (isTruthy_of_contains hclaimed.id hjti))
  · exact (Presentation.get?_toObject ho (f := .proof) nofun).trans (nonempty?_of_isNull hproof)

/-- Every credential and every presentation that has a claim set is carried there with no value
twice. -/
theorem carried_once (w : Surroundings) :
    (∀ (c : Credential) (claims : Claims), ofCredential w.nonce c = .ok claims →
      ∃ o, Object.get? claims "vc" = some (.object o) ∧ CredentialOnce claims o) ∧
    ∀ (signer : Signer) (terms : Option PresentationTerms) (p : Presentation) (claims : Claims),
      Issue.presentationClaims w signer terms p = .ok claims →
      ∃ o, Object.get? claims "vp" = some (.object o) ∧ PresentationOnce claims o :=
  ⟨fun _ _ h => credentialOnce_of_ofCredential h,
    fun _ _ _ _ h => presentationOnce_of_presentationClaims h⟩

/-- A credential that gives every field with a claim of its own. -/
def promotedCredential : Credential :=
  { Credential.empty with
    id := .text "c"
    issuer := .text "a"
    issuanceDate := .int 1
    expirationDate := .int 9
    subject := .object [("id", .text "b"), ("name", .text "x")] }

/-- Each of its claims is there, and so is each claim of a presentation with an identifier. -/
theorem carried_once_promotedCredential :
    (∃ claims o, ofCredential "n" promotedCredential = .ok claims ∧
      Object.get? claims "vc" = some (.object o) ∧ CredentialOnce claims o ∧
      Object.get? claims "nbf" = some (.int 1) ∧
      ["exp", "jti", "sub"].all (Object.contains claims) = true) ∧
    ∃ claims o, Issue.presentationClaims ⟨[.edDsa], "n", .int 0⟩ Signer.zeroSigner none
        { Verify.mixedPresentation with id := .text "p" } = .ok claims ∧
      Object.get? claims "vp" = some (.object o) ∧ PresentationOnce claims o ∧
      ["iss", "jti"].all (Object.contains claims) = true := by
  have honce := carried_once ⟨[.edDsa], "n", .int 0⟩
  constructor
  · have hclaims : ofCredential "n" promotedCredential = .ok
        [("exp", .int 9), ("nonce", .text "n"), ("iss", .text "a"), ("iat", .int 1),
          ("nbf", .int 1), ("jti", .text "c"), ("sub", .text "b"),
          ("vc", .object [("credentialSubject", .object [("name", .text "x")])])] := rfl
    obtain ⟨o, hvc, hcredential⟩ := honce.1 _ _ hclaims
    exact ⟨_, o, hclaims, hvc, hcredential, rfl, rfl⟩
  · have hclaims : Issue.presentationClaims ⟨[.edDsa], "n", .int 0⟩ Signer.zeroSigner none
        { Verify.mixedPresentation with id := .text "p" } = .ok
        [("iat", .int 0), ("nbf", .int 0), ("nonce", .text "n"), ("jti", .text "p"),
          ("iss", .text "a"), ("vp", .object
            [("verifiableCredential", .list [.text "x", .object [("id", .text "c")]])])] := rfl
    obtain ⟨o, hvp, hpresentation⟩ := honce.2 _ _ _ _ hclaims
    exact ⟨_, o, hclaims, hvp, hpresentation, rfl⟩

end Claims

end Attest
