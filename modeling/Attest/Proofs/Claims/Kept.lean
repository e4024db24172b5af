import Attest.Proofs.Issue.Once

/-! What a credential shows is kept in its claim set: as a claim, or in the claim that holds the rest of
the credential. There is one exception. Issuer and date of issue are taken out of the rest whatever they
are, but only a value that counts as true gets a claim, so that one that is false or zero is lost. -/

namespace Attest

namespace Value

theorem nonempty?_of_isEmpty {v : Value} (h : v.isEmpty = false) : v.nonempty? = some v :=
  nonempty?_eq_some_iff.mpr ⟨rfl, h⟩

theorem nonempty?_moved_of_false {v : Value} (hfalse : v.isTruthy = false) (hgiven : v.isEmpty = false) :
    v.moved.nonempty? = some v := by
  rw [nonempty?_moved, hfalse]
  exact nonempty?_of_isEmpty hgiven

end Value

namespace Credential

/-- The members of the object of a credential are its fields that are not empty. -/
theorem exists_field_of_get? {c : Credential} {name : String} {v : Value}
    (h : Object.get? c.toObject name = some v) :
    ∃ f : Field, f.member = name ∧ c.get f = v ∧ v.isEmpty = false := by
  have hmem : (name, v) ∈ c.toObject := by
    obtain ⟨before, after, hobject, -⟩ := List.lookup_eq_some_iff.mp h
    rw [hobject]
    exact List.mem_append_right _ List.mem_cons_self
  rw [toObject_eq] at hmem
  obtain ⟨f, -, hf⟩ := List.mem_filterMap.mp hmem
  obtain ⟨w, hw, hpair⟩ := Option.map_eq_some_iff.mp hf
  obtain ⟨rfl, rfl⟩ := Prod.mk.inj hpair
  obtain ⟨hget, hgiven⟩ := Value.nonempty?_eq_some_iff.mp hw
  exact ⟨f, rfl, hget, hgiven⟩

end Credential

namespace Claims

/-- What the value of a field says is said in a claim set and the object in its claim for the
credential. -/
inductive Kept (claims : Claims) (o : Object) : Credential.Field → Value → Prop
  | issuer {s : String} (hiss : Object.get? claims "iss" = some (.text s)) :
    Kept claims o .issuer (.text s)
  | issuanceDate {v : Value} {n : Int} (hdate : numericDate "iat" v = .ok n)
    (hiat : Object.get? claims "iat" = some (.int n))
    (hnbf : Object.get? claims "nbf" = some (.int n)) : Kept claims o .issuanceDate v
  | expirationDate {v : Value} {n : Int} (hdate : numericDate "exp" v = .ok n)
    (hexp : Object.get? claims "exp" = some (.int n)) : Kept claims o .expirationDate v
  | id {s : String} (hjti : Object.get? claims "jti" = some (.text s)) :
    Kept claims o .id (.text s)
  | subject {members : Object} {s : String} (hid : Object.get? members "id" = some (.text s))
    (hsub : Object.get? claims "sub" = some (.text s))
    (hrest : Object.get? o "credentialSubject" =
      (Value.object (Object.erase members "id")).nonempty?) :
    Kept claims o .subject (.object members)
  | inPlace {f : Credential.Field} {v : Value} (h : Object.get? o f.member = some v) :
    Kept claims o f v

/-- An issuer or a date of issue that is given and counts as false: `false` or zero. -/
def Lost (f : Credential.Field) (v : Value) : Prop :=
  (f = .issuer ∨ f = .issuanceDate) ∧ v.isTruthy = false

/-- The identifier of a subject is the one that it has as an object, unless it has none. -/
theorem exists_identifier_of_subjectId {c : Credential} {s : String} (h : c.subjectId = .ok s)
    (hs : s.isEmpty = false) :
    ∃ o, c.subject = .object o ∧ Object.get? o "id" = some (.text s) := by
  unfold Credential.subjectId Credential.identifierOf at h
  split at h
  · split at h
    · rename_i o ho
      split at h
      · rename_i t ht
        obtain rfl := Except.ok.inj h
        exact ⟨o, ho, ht⟩
      · obtain rfl := Except.ok.inj h
        cases hs
    · cases h
  · obtain rfl := Except.ok.inj h
    cases hs

theorem movedId_of_isEmpty (subject : Value) {s : String} (hs : s.isEmpty = true) :
    subject.movedId s = subject := by
  unfold Value.movedId
  split
  · exact if_pos hs
  · rfl

/-- A subject that has an identifier is kept in two places, and any other as it is. -/
theorem kept_subject {claims : Claims} {c : Credential} {exp iss iat jti : Value} {subjectId : String}
    (hclaims : Carries claims c exp iss iat jti subjectId) (hid : c.subjectId = .ok subjectId)
    (hgiven : c.subject.isEmpty = false) :
    Kept claims (c.remainder subjectId).toObject .subject c.subject := by
  have hplace : Object.get? (c.remainder subjectId).toObject "credentialSubject" =
      (c.subject.movedId subjectId).nonempty? := Credential.get?_toObject _ .subject
  cases hs : subjectId.isEmpty with
  | true =>
    rw [movedId_of_isEmpty c.subject hs, Value.nonempty?_of_isEmpty hgiven] at hplace
    exact .inPlace hplace
  | false =>
    obtain ⟨o, ho, hmember⟩ := exists_identifier_of_subjectId hid hs
    have hrest : c.subject.movedId subjectId = .object (Object.erase o "id") := by
      rw [ho, Value.movedId, hs]
      rfl
    have hne : subjectId ≠ "" := by
      rintro rfl
      cases hs
    have htruthy : (Value.text subjectId).isTruthy = true := by
      rw [Value.isTruthy_text]
      exact decide_eq_true hne
    rw [hrest] at hplace
    rw [ho]
    exact .subject hmember (hclaims.subject.trans (if_pos htruthy)) hplace

/-- A value that was moved to a claim is kept there, and one that was not is kept in its place. -/
theorem kept_moved {claims : Claims} {c : Credential} {subjectId : String} {f : Credential.Field}
    (hplace : (c.remainder subjectId).get f = (c.get f).moved) (hgiven : (c.get f).isEmpty = false)
    (hclaim : (c.get f).isTruthy = true →
      Kept claims (c.remainder subjectId).toObject f (c.get f)) :
    Kept claims (c.remainder subjectId).toObject f (c.get f) := by
  cases htruthy : (c.get f).isTruthy with
  | true => exact hclaim htruthy
  | false =>
    refine .inPlace ((Credential.get?_toObject _ f).trans ?_)
    rw [hplace]
    exact Value.nonempty?_moved_of_false htruthy hgiven

/-- The object in the claim for a credential never has the issuer or the date of issue. -/
theorem kept_issuer_iff {claims : Claims} {c : Credential} {exp iss iat jti : Value}
    {subjectId : String} (hclaims : Carries claims c exp iss iat jti subjectId)
    (hiss : c.issuer.isTruthy = true → normalize "iss" c.issuer = .ok iss) :
    Kept claims (c.remainder subjectId).toObject .issuer c.issuer ↔ c.issuer.isTruthy = true := by
  constructor
  · intro hkept
    generalize hv : c.issuer = v at hkept ⊢
    cases hkept with
    | issuer hclaim =>
      rw [hclaims.issuer, hv] at hclaim
      split at hclaim
      · assumption
      · cases hclaim
    | inPlace hmember =>
      cases hmember.symm.trans (Credential.get?_toObject (c.remainder subjectId) .issuer)
  · intro htruthy
    obtain ⟨htext, rfl⟩ := (normalize_name rfl).mp (hiss htruthy)
    obtain ⟨s, hs⟩ := Value.exists_of_isText htext
    have hclaim := hclaims.issuer.trans (if_pos htruthy)
    rw [hs] at hclaim ⊢
    exact .issuer hclaim

theorem kept_issuanceDate_iff {nonce : String} {c : Credential} {exp iss iat nbf jti : Value}
    {subjectId : String} (hiat : c.issuanceDate.isTruthy = true →
      normalize "iat" c.issuanceDate = .ok iat)
    (hnbf : c.issuanceDate.isTruthy = true → normalize "nbf" c.issuanceDate = .ok nbf) :
    Kept (promoted nonce c exp iss iat nbf jti subjectId) (c.remainder subjectId).toObject
      .issuanceDate c.issuanceDate ↔ c.issuanceDate.isTruthy = true := by
  have hissuance := (carries_promoted nonce c exp iss iat nbf jti subjectId).issuance
  constructor
  · intro hkept
    generalize hv : c.issuanceDate = v at hkept ⊢
    cases hkept with
    | issuanceDate hdate hclaim =>
      rw [hissuance, hv] at hclaim
      split at hclaim
      · assumption
      · cases hclaim
    | inPlace hmember =>
      cases hmember.symm.trans (Credential.get?_toObject (c.remainder subjectId) .issuanceDate)
  · intro htruthy
    obtain rfl := normalize_iat_nbf (hiat htruthy) (hnbf htruthy)
    obtain ⟨n, hdate, rfl⟩ := exists_numericDate_of_normalize rfl (hiat htruthy)
    have hnotBefore := get?_promoted_nbf nonce c exp iss (.int n) (.int n) jti subjectId
    exact .issuanceDate hdate (hissuance.trans (if_pos htruthy)) (hnotBefore.trans (if_pos htruthy))

/-- Whatever a credential with a claim set shows is kept there, unless it is an issuer or a date of
issue that counts as false. -/
theorem kept_iff {nonce : String} {c : Credential} {claims : Claims}
    (h : ofCredential nonce c = .ok claims) :
    ∃ o, Object.get? claims "vc" = some (.object o) ∧
      ∀ name v, Object.get? c.toObject name = some v →
        ∃ f : Credential.Field, f.member = name ∧ (Kept claims o f v ↔ ¬Lost f v) := by
  obtain ⟨-, -, exp, iss, iat, nbf, jti, subjectId, hexp, hiss, hiat, hnbf, hjti, hid, rfl⟩ :=
    ofCredential_eq_ok_iff.mp h
  have hclaims := carries_promoted nonce c exp iss iat nbf jti subjectId
  have hplace (f : Credential.Field) := Credential.get?_toObject (c.remainder subjectId) f
  refine ⟨_, hclaims.credential, fun name v hshown => ?_⟩
  obtain ⟨f, hname, rfl, hgiven⟩ := Credential.exists_field_of_get? hshown
  refine ⟨f, hname, ?_⟩
  have hnotLost (hne : f ≠ .issuer ∧ f ≠ .issuanceDate) : ¬Lost f (c.get f) :=
    fun hlost => hlost.1.elim hne.1 hne.2
  cases f with
  | issuer =>
    refine (kept_issuer_iff hclaims hiss).trans ?_
    simp [Lost, Credential.get]
  | issuanceDate =>
    refine (kept_issuanceDate_iff hiat hnbf).trans ?_
    simp [Lost, Credential.get]
  | expirationDate =>
    refine iff_of_true (kept_moved rfl hgiven fun htruthy => ?_) (hnotLost ⟨nofun, nofun⟩)
    obtain ⟨n, hdate, rfl⟩ := exists_numericDate_of_normalize rfl (hexp htruthy)
    exact .expirationDate hdate (hclaims.expiration.trans (if_pos htruthy))
  | id =>
    refine iff_of_true (kept_moved rfl hgiven fun htruthy => ?_) (hnotLost ⟨nofun, nofun⟩)
    obtain ⟨htext, rfl⟩ := (normalize_name rfl).mp (hjti htruthy)
    obtain ⟨s, hs⟩ := Value.exists_of_isText htext
    have hclaim := hclaims.id.trans (if_pos htruthy)
    show Kept _ _ .id c.id
    rw [hs] at hclaim ⊢
    exact .id hclaim
  | subject => exact iff_of_true (kept_subject hclaims hid hgiven) (hnotLost ⟨nofun, nofun⟩)
  | context | type | status | schema | refreshService | termsOfUse | evidence | proof =>
    exact iff_of_true (.inPlace ((hplace _).trans (Value.nonempty?_of_isEmpty hgiven)))
      (hnotLost ⟨nofun, nofun⟩)

/-- All that `promotedCredential` shows is kept. -/
theorem kept_promotedCredential :
    ∃ claims o, ofCredential "n" promotedCredential = .ok claims ∧
      Object.get? claims "vc" = some (.object o) ∧
      ∀ name v, Object.get? promotedCredential.toObject name = some v →
        ∃ f : Credential.Field, f.member = name ∧ (Kept claims o f v ↔ ¬Lost f v) := by
  have hclaims : ofCredential "n" promotedCredential = .ok
      [("exp", .int 9), ("nonce", .text "n"), ("iss", .text "a"), ("iat", .int 1),
        ("nbf", .int 1), ("jti", .text "c"), ("sub", .text "b"),
        ("vc", .object [("credentialSubject", .object [("name", .text "x")])])] := rfl
  obtain ⟨o, hvc, hkept⟩ := kept_iff hclaims
  exact ⟨_, o, hclaims, hvc, hkept⟩

/-- The issuer of an object that is a credential is zero, and its claim set says so nowhere. -/
theorem not_kept_zeroIssuer :
    ∃ c claims o, Credential.ofValue (.object [("id", .text "c"), ("issuer", .int 0)]) = .ok c ∧
      ofCredential "n" c = .ok claims ∧ Object.get? c.toObject "issuer" = some (.int 0) ∧
      Object.get? claims "vc" = some (.object o) ∧ Object.get? claims "iss" = none ∧
      Object.get? o "issuer" = none ∧ ¬Kept claims o .issuer (.int 0) := by
  refine ⟨_, _, _, rfl, rfl, rfl, rfl, rfl, rfl, fun hkept => ?_⟩
  cases hkept with
  | inPlace hmember => cases hmember

end Claims

end Attest
