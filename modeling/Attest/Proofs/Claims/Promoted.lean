import Attest.Proofs.Claims.Fields
import Attest.Proofs.Claims.Setting

/-! The claim set of a credential: which fields are moved to claims of their own, and what is left of
the credential in the claim that holds it. -/

namespace Attest.Claims

theorem put_subject {subjectId : String} {w : Value}
    (h : (Value.text subjectId).isTruthy = true → normalize "sub" (.text subjectId) = .ok w)
    (claims : Claims) : put claims "sub" (.text subjectId) w =
      put claims "sub" (.text subjectId) (.text subjectId) := by
  unfold put
  split
  · rename_i hsubject
    rw [((normalize_name rfl).mp (h hsubject)).2]
  · rfl

/-- The claim set of a credential with these values of its claims. -/
def promoted (nonce : String) (c : Credential) (exp iss iat nbf jti : Value) (subjectId : String) :
    Claims :=
  let claims := put [] "exp" c.expirationDate exp
  let claims := Object.set claims "nonce" (.text nonce)
  let claims := put claims "iss" c.issuer iss
  let claims := put claims "iat" c.issuanceDate iat
  let claims := put claims "nbf" c.issuanceDate nbf
  let claims := put claims "jti" c.id jti
  let claims := put claims "sub" (.text subjectId) (.text subjectId)
  Object.set claims "vc" (.object (c.remainder subjectId).toObject)

/-- A credential has a claim set exactly if it is neither empty nor proved otherwise, and its fields
with claims of their own have values that these may hold. -/
theorem ofCredential_eq_ok_iff {nonce : String} {c : Credential} {claims : Claims} :
    ofCredential nonce c = .ok claims ↔ c.isEmpty = false ∧ c.proof.isNull = true ∧
      ∃ exp iss iat nbf jti subjectId,
        (c.expirationDate.isTruthy = true → normalize "exp" c.expirationDate = .ok exp) ∧
        (c.issuer.isTruthy = true → normalize "iss" c.issuer = .ok iss) ∧
        (c.issuanceDate.isTruthy = true → normalize "iat" c.issuanceDate = .ok iat) ∧
        (c.issuanceDate.isTruthy = true → normalize "nbf" c.issuanceDate = .ok nbf) ∧
        (c.id.isTruthy = true → normalize "jti" c.id = .ok jti) ∧
        c.subjectId = .ok subjectId ∧ claims = promoted nonce c exp iss iat nbf jti subjectId := by
  have hnonce (claims : Claims) (v : Value) :
      set claims "nonce" v = .ok (Object.set claims "nonce" v) :=
    set_untyped rfl rfl (by decide) claims v
  have hvc (claims : Claims) (v : Value) :
      set claims "vc" v = .ok (Object.set claims "vc" v) :=
    set_untyped rfl rfl (by decide) claims v
  unfold ofCredential
  cases c.isEmpty with
  | true => exact iff_of_false nofun fun h => nomatch h.1
  | false =>
    cases c.proof.isNull with
    | false => exact iff_of_false nofun fun h => nomatch h.2.1
    | true =>
      simp only [Bool.false_eq_true, if_false, Bool.not_true, Except.bind_eq_ok_iff,
        setIfTruthy_eq_ok_iff, hnonce, hvc, Except.mapError_eq_ok_iff, Except.ok.injEq, true_and]
      constructor
      · rintro ⟨_, ⟨exp, hexp, rfl⟩, _, rfl, _, ⟨iss, hiss, rfl⟩, _, ⟨iat, hiat, rfl⟩, _,
          ⟨nbf, hnbf, rfl⟩, _, ⟨jti, hjti, rfl⟩, subjectId, hsubject, _, ⟨sub, hsub, rfl⟩, rfl⟩
        refine ⟨exp, iss, iat, nbf, jti, subjectId, hexp, hiss, hiat, hnbf, hjti, hsubject, ?_⟩
        rw [promoted, put_subject hsub]
      · rintro ⟨exp, iss, iat, nbf, jti, subjectId, hexp, hiss, hiat, hnbf, hjti, hsubject, rfl⟩
        exact ⟨_, ⟨exp, hexp, rfl⟩, _, rfl, _, ⟨iss, hiss, rfl⟩, _, ⟨iat, hiat, rfl⟩, _,
          ⟨nbf, hnbf, rfl⟩, _, ⟨jti, hjti, rfl⟩, subjectId, hsubject, _,
          ⟨.text subjectId, fun _ => (normalize_name rfl).mpr ⟨rfl, rfl⟩, rfl⟩, rfl⟩

theorem exists_movedId {subject : Value} (h : subject.isEmpty = true ∨ ∃ o, subject = .object o)
    (id : String) : ∃ o, (subject.movedId id).orDefault (.object []) = .object o := by
  have hobject (o : Object) : ∃ o', (Value.object o).orDefault (.object []) = .object o' := by
    cases o with
    | nil => exact ⟨[], rfl⟩
    | cons m rest => exact ⟨m :: rest, rfl⟩
  cases subject with
  | object o =>
    unfold Value.movedId
    simp only
    split
    · exact hobject o
    · exact hobject _
  | _ =>
    refine ⟨[], if_pos (h.resolve_right ?_)⟩
    rintro ⟨o, ho⟩
    cases ho

theorem wellFormed_movedId {subject : Value} (h : subject.WellFormed) (id : String) :
    (subject.movedId id).WellFormed := by
  unfold Value.movedId
  split
  · split
    · exact h
    · exact Object.wellFormed_erase h "id"
  · exact h

theorem wellFormed_remainder {c : Credential} (h : (Value.credential c).WellFormed)
    (subjectId : String) : (Value.credential (c.remainder subjectId)).WellFormed := by
  rw [Value.wellFormed_credential_iff] at h ⊢
  intro f
  have hfield := h f
  cases f with
  | id | expirationDate => exact wellFormed_moved hfield
  | issuer | issuanceDate => exact Value.wellFormed_text ""
  | subject => exact wellFormed_movedId hfield subjectId
  | _ => exact hfield

/-- The claim set of a credential of well-formed values is read again as it is. -/
theorem sound_of_ofCredential {nonce : String} {c : Credential} {claims : Claims}
    (h : ofCredential nonce c = .ok claims) (hwell : (Value.credential c).WellFormed) :
    Sound claims := by
  obtain ⟨-, -, exp, iss, iat, nbf, jti, subjectId, hexp, hiss, hiat, hnbf, hjti, -, rfl⟩ :=
    ofCredential_eq_ok_iff.mp h
  have hfield := Value.wellFormed_credential_iff.mp hwell
  have hnonce {claims : Claims} (hclaims : Sound claims) :
      Sound (Object.set claims "nonce" (.text nonce)) :=
    hclaims.set (.inr (.inr (Value.wellFormed_text nonce))) (set_untyped rfl rfl (by decide) _ _)
  have hsubject : (Value.text subjectId).isTruthy = true →
      normalize "sub" (.text subjectId) = .ok (.text subjectId) :=
    fun _ => (normalize_name rfl).mpr ⟨rfl, rfl⟩
  have hremainder : (Value.object (c.remainder subjectId).toObject).WellFormed :=
    Credential.wellFormed_toObject (wellFormed_remainder hwell subjectId)
  exact ((((((hnonce (sound_nil.put (.inl rfl) hexp)).put (.inr (.inr (hfield .issuer))) hiss).put
    (.inl rfl) hiat).put (.inl rfl) hnbf).put (.inr (.inr (hfield .id))) hjti).put
      (.inr (.inr (Value.wellFormed_text subjectId))) hsubject).set (.inr (.inr hremainder))
        (set_untyped rfl rfl (by decide) _ _)

/-- The claims that are read when a credential is made of a claim set again. -/
structure Carries (claims : Claims) (c : Credential) (exp iss iat jti : Value) (subjectId : String) :
    Prop where
  expiration : Object.get? claims "exp" = if c.expirationDate.isTruthy then some exp else none
  issuer : Object.get? claims "iss" = if c.issuer.isTruthy then some iss else none
  issuance : Object.get? claims "iat" = if c.issuanceDate.isTruthy then some iat else none
  id : Object.get? claims "jti" = if c.id.isTruthy then some jti else none
  subject : Object.get? claims "sub" =
    if (Value.text subjectId).isTruthy then some (.text subjectId) else none
  credential : Object.get? claims "vc" = some (.object (c.remainder subjectId).toObject)

theorem carries_promoted (nonce : String) (c : Credential) (exp iss iat nbf jti : Value)
    (subjectId : String) :
    Carries (promoted nonce c exp iss iat nbf jti subjectId) c exp iss iat jti subjectId := by
  unfold promoted
  constructor <;> simp [Object.get?_set, get?_put]

theorem get?_promoted_nbf (nonce : String) (c : Credential) (exp iss iat nbf jti : Value)
    (subjectId : String) :
    Object.get? (promoted nonce c exp iss iat nbf jti subjectId) "nbf" =
      if c.issuanceDate.isTruthy then some nbf else none := by
  unfold promoted
  simp [Object.get?_set, get?_put]

/-- A credential whose subject is an object or empty is made of its claim set again. -/
theorem ofValue_remainder {c : Credential}
    (h : c.subject.isEmpty = true ∨ ∃ o, c.subject = .object o) (subjectId : String) :
    Credential.ofValue (.object (c.remainder subjectId).toObject) =
      .ok (Credential.ofMembers (c.remainder subjectId).toObject) := by
  obtain ⟨o, ho⟩ := exists_movedId h subjectId
  exact Credential.ofValue_of_subject
    ((Credential.get_ofMembers_toObject (c.remainder subjectId) .subject).trans ho)

/-- A subject that counts as true is asked for its identifier, and only an object has one. -/
theorem isObject_of_subjectId {c : Credential} {subjectId : String}
    (h : c.subjectId = .ok subjectId) (htruthy : c.subject.isTruthy = true) :
    ∃ o, c.subject = .object o := by
  unfold Credential.subjectId Credential.identifierOf at h
  rw [if_pos htruthy] at h
  split at h
  · rename_i o ho
    exact ⟨o, ho⟩
  · cases h

/-- The credential of the claim set has the issuer whom the claim names. -/
theorem exists_toCredential {nonce issuer : String} {c : Credential} {claims : Claims}
    (h : ofCredential nonce c = .ok claims) (hissuer : c.issuer = .text issuer) (hne : issuer ≠ "")
    (hgiven : c.subject.isTruthy = true ∨ c.subject.isEmpty = true) :
    ∃ d, toCredential claims = .ok d ∧ d.issuer = .text issuer := by
  obtain ⟨-, -, exp, iss, iat, nbf, jti, subjectId, -, hiss, -, -, -, hid, rfl⟩ :=
    ofCredential_eq_ok_iff.mp h
  have hclaims := carries_promoted nonce c exp iss iat nbf jti subjectId
  have hsubject : c.subject.isEmpty = true ∨ ∃ o, c.subject = .object o :=
    hgiven.symm.imp_right (isObject_of_subjectId hid)
  refine ⟨_, toCredential_eq_ok_iff.mpr
    ⟨_, _, hclaims.credential, ofValue_remainder hsubject subjectId, rfl⟩, ?_⟩
  have htruthy : c.issuer.isTruthy = true := by
    rw [hissuer, Value.isTruthy_text]
    exact decide_eq_true hne
  obtain rfl : iss = .text issuer := ((normalize_name rfl).mp (hiss htruthy)).2.trans hissuer
  have hclaim := hclaims.issuer
  rw [hissuer] at hclaim
  show overrideText _ _ = Value.text issuer
  rw [overrideText_claim hclaim]
  exact if_neg (by simp [Value.isEmpty, hne])

/-- No credential is made of the claim set when the subject is false or zero: it is neither left out
nor an object. -/
theorem toCredential_of_falseSubject {nonce : String} {c : Credential} {claims : Claims}
    (h : ofCredential nonce c = .ok claims) (hfalse : c.subject.isTruthy = false)
    (hgiven : c.subject.isEmpty = false) :
    toCredential claims =
      .error (.token (.content .credential (.subjectNotObject c.subject.typeName))) := by
  obtain ⟨-, -, exp, iss, iat, nbf, jti, subjectId, -, -, -, -, -, -, rfl⟩ :=
    ofCredential_eq_ok_iff.mp h
  have hclaims := carries_promoted nonce c exp iss iat nbf jti subjectId
  have hsubject : (Credential.ofMembers (c.remainder subjectId).toObject).subject =
      (c.subject.movedId subjectId).orDefault (.object []) :=
    Credential.get_ofMembers_toObject (c.remainder subjectId) .subject
  have hvalue : Credential.ofValue (.object (c.remainder subjectId).toObject) =
      .error (.subjectNotObject c.subject.typeName) := by
    unfold Credential.ofValue
    simp only [hsubject]
    rcases Value.eq_of_false hfalse hgiven with ⟨b, hb⟩ | ⟨i, hi⟩ | ⟨x, hx⟩
    · rw [hb]
      rfl
    · rw [hi]
      rfl
    · rw [hx]
      rfl
  rw [toCredential, hclaims.credential]
  simp only [hvalue]

/-- A credential is made of the claim set again unless the subject is false or zero. -/
theorem exists_toCredential_iff {nonce : String} {c : Credential} {claims : Claims}
    (h : ofCredential nonce c = .ok claims) :
    (∃ d, toCredential claims = .ok d) ↔ c.subject.isTruthy = true ∨ c.subject.isEmpty = true := by
  constructor
  · rintro ⟨d, hd⟩
    cases htruthy : c.subject.isTruthy with
    | true => exact .inl rfl
    | false =>
      cases hempty : c.subject.isEmpty with
      | true => exact .inr rfl
      | false =>
        rw [toCredential_of_falseSubject h htruthy hempty] at hd
        cases hd
  · intro hgiven
    obtain ⟨-, -, exp, iss, iat, nbf, jti, subjectId, -, -, -, -, -, hid, rfl⟩ :=
      ofCredential_eq_ok_iff.mp h
    have hclaims := carries_promoted nonce c exp iss iat nbf jti subjectId
    have hsubject : c.subject.isEmpty = true ∨ ∃ o, c.subject = .object o :=
      hgiven.symm.imp_right (isObject_of_subjectId hid)
    exact ⟨_, toCredential_eq_ok_iff.mpr
      ⟨_, _, hclaims.credential, ofValue_remainder hsubject subjectId, rfl⟩⟩

end Attest.Claims
