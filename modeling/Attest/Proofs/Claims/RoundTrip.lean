import Attest.Proofs.Claims.Dates
import Attest.Proofs.Claims.Promoted
import Attest.Proofs.Claims.Reading

/-! A credential is found again from its claim set: each field with a claim of its own is put back, and
the others were not moved. Only empty values are not kept, and the place of the subject's identifier
among the members of the subject. -/

namespace Attest

/-- The values are the same, or objects with the same members, whatever their order. -/
inductive Value.SameMembers : Value → Value → Prop
  | refl (v : Value) : SameMembers v v
  | object {o o' : Object} (h : ∀ name, Object.get? o name = Object.get? o' name) :
    SameMembers (.object o) (.object o')

theorem Value.SameMembers.of_eq {v w : Value} (h : v = w) : SameMembers v w := h ▸ .refl v

namespace Claims

/-- A date that is not given, or a timestamp. -/
def IsDate (v : Value) : Prop := v.isEmpty = true ∨ ∃ s, v = .text s ∧ DateTime.IsTimestamp s

theorem IsDate.isEmpty {v : Value} (h : IsDate v) (hv : v.isTruthy = false) : v.isEmpty = true := by
  rcases h with hempty | ⟨s, rfl, -⟩
  · exact hempty
  · exact Value.isEmpty_text_of_not_isTruthy hv

/-- A date in a claim of its own overrides the field, unless it is not given. -/
theorem exists_overrideTime {v : Value} (h : IsDate v) (name : String) :
    ∃ n, (v.isTruthy = true → numericDate name v = .ok n) ∧ ∀ (claims : Claims) (base : Value),
      Object.get? claims name = (if v.isTruthy then some (.int n) else none) →
        overrideTime base (time? claims name) = v.orDefault base := by
  rcases h with hempty | ⟨s, rfl, hs⟩
  · refine ⟨0, fun htruthy => ?_, fun claims base hget => ?_⟩
    · rw [Value.isTruthy_of_isEmpty hempty] at htruthy
      cases htruthy
    · rw [Value.isTruthy_of_isEmpty hempty] at hget
      rw [time?, Object.getD, hget, Value.orDefault, if_pos hempty]
      rfl
  · obtain ⟨n, t, hn, ht, hsame⟩ := numericDate_timestamp hs name
    refine ⟨n, fun _ => hn, fun claims base hget => ?_⟩
    have hne : s ≠ "" := by
      rintro rfl
      obtain ⟨_, _, _, _, -, hs⟩ := hs
      exact absurd hs.symm (by simp)
    have htime : time? claims name = some t := by
      rw [time?, Object.getD, hget, Value.isTruthy_text, if_pos (by simp [hne])]
      simp only [Option.getD_some, Value.number?, DateTime.ofNumber, ht]
      rfl
    rw [htime]
    simp [overrideTime, hsame, Value.orDefault, Value.isEmpty, hne]

theorem identifierOf_of_text {o : Object} {s : String} (h : Object.get? o "id" = some (.text s)) :
    Credential.identifierOf (.object o) = .ok s := by
  cases o with
  | nil => cases h
  | cons m rest =>
    unfold Credential.identifierOf
    simp only [h]
    rfl

theorem identifierOf_of_no_text {o : Object}
    (h : ∀ s, Object.get? o "id" = some (.text s) → s = "") :
    Credential.identifierOf (.object o) = .ok "" := by
  unfold Credential.identifierOf
  split
  · simp only
    split
    · rename_i s hs
      rw [h s hs]
    · rfl
  · rfl

/-- A subject is found again from what is left of it and its identifier. -/
theorem exists_overrideId {subject : Value} (h : subject = .null ∨ ∃ o, subject = .object o) :
    ∃ subjectId, Credential.identifierOf subject = .ok subjectId ∧
      ∀ claims : Claims, Object.get? claims "sub" =
        (if (Value.text subjectId).isTruthy then some (.text subjectId) else none) →
          Value.SameMembers (overrideId ((subject.movedId subjectId).orDefault (.object []))
            (nonemptyText? claims "sub")) (subject.orDefault (.object [])) := by
  have hunset {claims : Claims} (hget : Object.get? claims "sub" = none) :
      nonemptyText? claims "sub" = none := by
    rw [nonemptyText?, text?, Object.getD, hget]
    rfl
  rcases h with rfl | ⟨o, rfl⟩
  · refine ⟨"", rfl, fun claims hget => ?_⟩
    rw [hunset hget]
    exact .refl _
  have hfull : (Value.object o).orDefault (.object []) = .object o := by cases o <;> rfl
  by_cases hid : ∃ s, Object.get? o "id" = some (.text s) ∧ s ≠ ""
  · obtain ⟨s, hs, hne⟩ := hid
    have hleft : ((Value.object o).movedId s).orDefault (.object []) =
        .object (Object.erase o "id") := by
      have hmoved : (Value.object o).movedId s = .object (Object.erase o "id") := by
        simp [Value.movedId, hne]
      rw [hmoved]
      cases Object.erase o "id" <;> rfl
    refine ⟨s, identifierOf_of_text hs, fun claims hget => ?_⟩
    have hsome : nonemptyText? claims "sub" = some s :=
      nonemptyText?_eq_some_iff.mpr ⟨by rw [hget, Value.isTruthy_text, if_pos (by simp [hne])], hne⟩
    rw [hleft, hsome, hfull]
    refine .object fun name => ?_
    rw [Object.get?_set]
    by_cases hname : name = "id"
    · rw [if_pos hname, hname, hs]
    · rw [if_neg hname, Object.get?_erase_of_ne hname]
  · have hnone : ∀ s, Object.get? o "id" = some (.text s) → s = "" := by
      intro s hs
      exact Decidable.byContradiction fun hne => hid ⟨s, hs, hne⟩
    have hleft : ((Value.object o).movedId "").orDefault (.object []) = .object o := hfull
    refine ⟨"", identifierOf_of_no_text hnone, fun claims hget => ?_⟩
    rw [hunset hget, hleft, hfull]
    exact .refl _

/-- The claims that override fields put back what the fields were. -/
theorem sameMembers_overrideCredential {claims : Claims} {c : Credential}
    {exp iat : Value} {subjectId id issuer : String} (hid : c.id = .text id)
    (hissuer : c.issuer = .text issuer)
    (hclaims : Carries claims c exp c.issuer iat c.id subjectId)
    (hexpiration : IsDate c.expirationDate)
    (hexp : ∀ base, overrideTime base (time? claims "exp") = c.expirationDate.orDefault base)
    (hiat : ∀ base, overrideTime base (time? claims "iat") = c.issuanceDate.orDefault base)
    (hsub : Value.SameMembers (overrideId ((c.subject.movedId subjectId).orDefault (.object []))
      (nonemptyText? claims "sub")) (c.subject.orDefault (.object []))) (f : Credential.Field) :
    Value.SameMembers
      ((overrideCredential claims (Credential.ofMembers (c.remainder subjectId).toObject)).get f)
      ((c.get f).orDefault f.default) := by
  have hfield := Credential.get_ofMembers_toObject (c.remainder subjectId) f
  cases f with
  | id =>
    have hleft : (c.remainder subjectId).id.orDefault (.text "") = .text "" :=
      Value.orDefault_moved (hid ▸ Value.isEmpty_text_of_not_isTruthy) _
    show Value.SameMembers (overrideText _ _) (c.id.orDefault _)
    rw [hid, overrideText_claim (hid ▸ hclaims.id)]
    exact .of_eq (congrArg _ (hfield.trans hleft))
  | issuer =>
    show Value.SameMembers (overrideText _ _) (c.issuer.orDefault _)
    rw [hissuer, overrideText_claim (hissuer ▸ hclaims.issuer)]
    exact .of_eq (congrArg _ hfield)
  | issuanceDate =>
    show Value.SameMembers (overrideTime _ _) (c.issuanceDate.orDefault _)
    rw [hiat]
    exact .of_eq (congrArg _ hfield)
  | expirationDate =>
    have hleft : (c.remainder subjectId).expirationDate.orDefault (.text "") = .text "" :=
      Value.orDefault_moved hexpiration.isEmpty _
    show Value.SameMembers (overrideTime _ _) (c.expirationDate.orDefault _)
    rw [hexp]
    exact .of_eq (congrArg _ (hfield.trans hleft))
  | subject =>
    have hbase : (Credential.ofMembers (c.remainder subjectId).toObject).subject =
        (c.subject.movedId subjectId).orDefault (.object []) := hfield
    show Value.SameMembers (overrideId _ _) (c.subject.orDefault _)
    rw [hbase]
    exact hsub
  | context | type | status | schema | refreshService | termsOfUse | evidence | proof =>
    exact .of_eq hfield

theorem normalize_time_of_numericDate {name : String} (htime : isTime name = true) {v : Value} {n : Int}
    (h : v.isTruthy = true → numericDate name v = .ok n) (hv : v.isTruthy = true) :
    normalize name v = .ok (.int n) := by
  rw [normalize_time htime, h hv]
  rfl

/-- A credential is found again from its claim set, but for empty values. -/
theorem toCredential_ofCredential (nonce : String) {c : Credential} (hgiven : c.isEmpty = false)
    (hproof : c.proof = .null) {id issuer : String} (hid : c.id = .text id)
    (hissuer : c.issuer = .text issuer)
    (hsubject : c.subject = .null ∨ ∃ o, c.subject = .object o) (hissuance : IsDate c.issuanceDate)
    (hexpiration : IsDate c.expirationDate) :
    ∃ claims d, ofCredential nonce c = .ok claims ∧ toCredential claims = .ok d ∧
      ∀ f, (d.get f).SameMembers ((c.get f).orDefault f.default) := by
  obtain ⟨exp, hexp, hsetExp⟩ := exists_overrideTime hexpiration "exp"
  obtain ⟨iat, hiat, hsetIat⟩ := exists_overrideTime hissuance "iat"
  obtain ⟨nbf, hnbf, -⟩ := exists_overrideTime hissuance "nbf"
  obtain ⟨subjectId, hsubjectId, hsetSub⟩ := exists_overrideId hsubject
  have hclaims := carries_promoted nonce c (.int exp) c.issuer (.int iat) (.int nbf) c.id subjectId
  have htext {name s : String} {v : Value} (hname : isName name = true) (hv : v = .text s) :
      v.isTruthy = true → normalize name v = .ok v :=
    fun _ => (normalize_name hname).mpr ⟨by rw [hv]; rfl, rfl⟩
  have hvalue := ofValue_remainder (hsubject.imp_left fun h => by rw [h]; rfl) subjectId
  refine ⟨_, _, ofCredential_eq_ok_iff.mpr ⟨hgiven, by rw [hproof]; rfl, .int exp, c.issuer,
    .int iat, .int nbf, c.id, subjectId, normalize_time_of_numericDate rfl hexp, htext rfl hissuer,
    normalize_time_of_numericDate rfl hiat, normalize_time_of_numericDate rfl hnbf, htext rfl hid,
    hsubjectId, rfl⟩, toCredential_eq_ok_iff.mpr ⟨_, _, hclaims.credential, hvalue, rfl⟩, ?_⟩
  exact sameMembers_overrideCredential hid hissuer hclaims hexpiration
    (hsetExp _ · hclaims.expiration) (hsetIat _ · hclaims.issuance) (hsetSub _ hclaims.subject)

/-- A credential with a subject that has an identifier, and dates at the ends of a month and of all
years. -/
def leapDayCredential : Credential :=
  { Credential.empty with
    id := .text "urn:1"
    type := .list [.text "VerifiableCredential"]
    issuer := .text "did:a"
    issuanceDate := .text "2024-02-29T12:30:45Z"
    expirationDate := .text "9999-12-31T23:59:59Z"
    subject := .object [("id", .text "b"), ("age", .int 7)]
    evidence := .list [] }

/-- This credential is found again, also its two dates. -/
theorem toCredential_leapDayCredential : ∃ claims d,
    ofCredential "n" leapDayCredential = .ok claims ∧ toCredential claims = .ok d ∧
      ∀ f, (d.get f).SameMembers ((leapDayCredential.get f).orDefault f.default) := by
  have hissuance : DateTime.IsTimestamp "2024-02-29T12:30:45Z" :=
    ⟨⟨2024, 2, 29, by decide⟩, 12, 30, 45, by decide, by decide +kernel⟩
  have hexpiration : DateTime.IsTimestamp "9999-12-31T23:59:59Z" :=
    ⟨⟨9999, 12, 31, by decide⟩, 23, 59, 59, by decide, by decide +kernel⟩
  exact toCredential_ofCredential "n" rfl rfl rfl rfl (.inr ⟨_, rfl⟩)
    (.inr ⟨_, rfl, hissuance⟩) (.inr ⟨_, rfl, hexpiration⟩)

end Claims

end Attest
