import Attest.Issue
import Attest.Proofs.Claims.Fields
import Attest.Proofs.Claims.Reading
import Attest.Proofs.Claims.Setting
import Attest.Proofs.Token.RoundTrip
import Attest.Proofs.Verification.Stages

/-! Presentations that are signed and read again: the holder, the identifier and each credential at its
place are the same, whatever the terms of use and the time. -/

namespace Attest

namespace Issue

variable {w : Surroundings} {signer : Signer} {terms : Option PresentationTerms} {p : Presentation}
  {claims claims' : Claims}

theorem audienceClaims_sound (h : audienceClaims terms = .ok claims) : Claims.Sound claims := by
  unfold audienceClaims at h
  split at h
  · exact Except.ok.inj h ▸ Claims.sound_nil
  · split at h
    · exact Except.ok.inj h ▸ Claims.sound_nil
    · exact Claims.sound_nil.set (.inr (.inl rfl)) h

theorem get?_audienceClaims (h : audienceClaims terms = .ok claims) {name : String}
    (hname : name ≠ "aud") : Object.get? claims name = none := by
  unfold audienceClaims at h
  split at h
  · exact Except.ok.inj h ▸ rfl
  · split at h
    · exact Except.ok.inj h ▸ rfl
    · exact Claims.get?_of_set h hname

theorem addExpiration_eq_ok (h : addExpiration claims terms = .ok claims') :
    claims' = claims ∨ ∃ v, claims.set "exp" v = .ok claims' := by
  unfold addExpiration at h
  split at h
  · exact .inl (Except.ok.inj h).symm
  · obtain ⟨positive, -, h⟩ := Except.bind_eq_ok_iff.mp h
    split at h
    · exact .inr ⟨_, h⟩
    · exact .inl (Except.ok.inj h).symm

theorem addExpiration_sound (h : addExpiration claims terms = .ok claims')
    (hclaims : Claims.Sound claims) : Claims.Sound claims' := by
  rcases addExpiration_eq_ok h with rfl | ⟨v, hset⟩
  · exact hclaims
  · exact hclaims.set (.inl rfl) hset

theorem get?_addExpiration (h : addExpiration claims terms = .ok claims') {name : String}
    (hname : name ≠ "exp") : Object.get? claims' name = Object.get? claims name := by
  rcases addExpiration_eq_ok h with rfl | ⟨v, hset⟩
  · rfl
  · exact Claims.get?_of_set hset hname

theorem addHolder_eq_ok {holder : Value} (h : addHolder claims signer holder = .ok claims') :
    claims.setIfTruthy "iss" holder = .ok claims' := by
  unfold addHolder at h
  unfold Claims.setIfTruthy
  split at h
  · rename_i hholder
    split at h
    · rw [if_pos hholder]
      exact h
    · cases h
  · rename_i hholder
    rw [if_neg hholder]
    exact h

/-- The claims that are read when a presentation is made of a claim set again. -/
structure Presents (claims : Claims) (p : Presentation) (o : Object) : Prop where
  sound : Claims.Sound claims
  presentation : Object.get? claims "vp" = some (.object o)
  holder : Object.get? claims "iss" = some p.holder
  id : Object.get? claims "jti" = if p.id.isTruthy then some p.id else none

theorem get_remainder (p : Presentation) (f : Presentation.Field) : p.remainder.get f =
    if f = .id ∨ f = .holder then (p.get f).moved else p.get f := by
  cases f <;> rfl

theorem wellFormed_get_remainder (hwell : ∀ f, (p.get f).WellFormed) (f : Presentation.Field) :
    (p.remainder.get f).WellFormed := by
  rw [get_remainder]
  split
  · exact Claims.wellFormed_moved (hwell f)
  · exact hwell f

/-- What the claim set of a presentation holds of its fields. -/
structure Claimed (claims : Claims) (p : Presentation) (o : Object) : Prop where
  presentation : Object.get? claims "vp" = some (.object o)
  holder : Object.get? claims "iss" = if p.holder.isTruthy then some p.holder else none
  id : Object.get? claims "jti" = if p.id.isTruthy then some p.id else none
  holderText : p.holder.isTruthy = true → p.holder.isText = true
  sound : (∀ f, (p.get f).WellFormed) → Claims.Sound claims

/-- A presentation that has a claim set is not proved otherwise, and what is left of it is an object
there. -/
theorem claimed_of_presentationClaims (h : presentationClaims w signer terms p = .ok claims) :
    p.proof.isNull = true ∧ ∃ o, p.remainder.toObject = .ok o ∧ Claimed claims p o := by
  unfold presentationClaims at h
  cases hempty : p.isEmpty with
  | true =>
    rw [hempty] at h
    cases h
  | false =>
    cases hproof : p.proof.isNull with
    | false =>
      rw [hempty, hproof] at h
      cases h
    | true =>
      rw [hempty, hproof] at h
      simp only [Bool.false_eq_true, if_false, Bool.not_true, Except.bind_eq_ok_iff,
        Except.mapError_eq_ok_iff] at h
      obtain ⟨c₁, haudience, now, -, c₂, hiat, c₃, hnbf, c₄, hnonce, c₅, hexp, c₆, hjti, c₇, hiss, o,
        ho, hvp⟩ := h
      have hiss := addHolder_eq_ok hiss
      have hbefore {name : String} (hiat' : name ≠ "iat") (hnbf' : name ≠ "nbf")
          (hnonce' : name ≠ "nonce") (hexp' : name ≠ "exp") (haud' : name ≠ "aud") :
          Object.get? c₅ name = none := by
        rw [get?_addExpiration hexp hexp', Claims.get?_of_set hnonce hnonce',
          Claims.get?_of_set hnbf hnbf', Claims.get?_of_set hiat hiat',
          get?_audienceClaims haudience haud']
      have hid : Object.get? c₆ "jti" = if p.id.isTruthy then some p.id else none := by
        rw [Claims.get?_of_setIfTruthy_name rfl hjti,
          hbefore (by decide) (by decide) (by decide) (by decide) (by decide)]
      have hnoIssuer : Object.get? c₆ "iss" = none := by
        rw [Claims.get?_of_setIfTruthy hjti (by decide),
          hbefore (by decide) (by decide) (by decide) (by decide) (by decide)]
      refine ⟨rfl, o, ho, ?_, ?_, ?_, fun hholder => ?_, fun hwell => ?_⟩
      · exact Claims.get?_of_set_untyped rfl rfl (by decide) hvp
      · rw [Claims.get?_of_set hvp (by decide), Claims.get?_of_setIfTruthy_name rfl hiss, hnoIssuer]
      · rw [Claims.get?_of_set hvp (by decide), Claims.get?_of_setIfTruthy hiss (by decide), hid]
      · obtain ⟨_, hnormal, -⟩ := Claims.setIfTruthy_eq_ok_iff.mp hiss
        exact ((Claims.normalize_name rfl).mp (hnormal hholder)).1
      · have hobject := Presentation.wellFormed_toObject (wellFormed_get_remainder hwell) ho
        have hsound : Claims.Sound c₅ := addExpiration_sound hexp
          ((((audienceClaims_sound haudience).set (.inl rfl) hiat).set (.inl rfl) hnbf).set
            (.inr (.inr (Value.wellFormed_text _))) hnonce)
        exact ((hsound.setIfTruthy (.inr (.inr (hwell .id))) hjti).setIfTruthy
          (.inr (.inr (hwell .holder))) hiss).set (.inr (.inr hobject)) hvp

/-- A presentation with a holder has a claim set that presents what is left of it. -/
theorem presents_of_presentationClaims (hwell : ∀ f, (p.get f).WellFormed)
    (hholder : p.holder.isTruthy = true)
    (h : presentationClaims w signer terms p = .ok claims) :
    ∃ o, p.remainder.toObject = .ok o ∧ Presents claims p o := by
  obtain ⟨-, o, ho, hclaimed⟩ := claimed_of_presentationClaims h
  have hiss := hclaimed.holder
  rw [if_pos hholder] at hiss
  exact ⟨o, ho, hclaimed.sound hwell, hclaimed.presentation, hiss, hclaimed.id⟩

/-- The token of a presentation is its claim set, signed. -/
theorem presentation_eq_ok {s t : Session} {token : String}
    (h : presentation w signer terms p s = (.ok token, t)) :
    ∃ claims header, presentationClaims w signer terms p = .ok claims ∧
      signer.header w.registry = .ok header ∧
      signer.sign (.object claims) (.object header) = .ok token := by
  unfold presentation signClaims at h
  simp only [Run.bind_eq_ok_iff, Run.ofExcept_eq_ok_iff, Except.mapError_eq_ok_iff] at h
  obtain ⟨claims, _, ⟨hclaims, -⟩, header, _, ⟨hheader, -⟩, _, _, -, _, _, -, hsign, -⟩ := h
  exact ⟨claims, header, hclaims, hheader, hsign⟩

end Issue

namespace Claims

/-- What is left of a presentation and the claims that were made of it are the presentation again. -/
theorem toPresentation_of_presents {claims : Claims} {p : Presentation} {o : Object}
    {items : List Value} {holder id : String} (h : Issue.Presents claims p o)
    (hitems : p.credentials = .list items) (ho : p.remainder.toObject = .ok o)
    (hholder : p.holder = .text holder) (hid : p.id = .text id) :
    ∃ q, toPresentation claims = .ok q ∧
      ∀ f, q.get f = ((p.plain items).get f).orDefault f.default := by
  have hfields := Presentation.get_ofMembers_toObject (p := p.remainder) hitems ho
  have hresult : toPresentation claims = .ok { Presentation.ofMembers o with
      holder := .text holder
      id := overrideText (Presentation.ofMembers o).id (nonemptyText? claims "jti") } := by
    have hvalue := Presentation.ofValue_toObject (p := p.remainder) hitems ho
    have hclaim : Object.get? claims "iss" = some (.text holder) := hholder ▸ h.holder
    unfold toPresentation
    simp only [h.presentation, hvalue, hclaim]
  refine ⟨_, hresult, fun f => ?_⟩
  have hfield := hfields f
  cases f with
  | holder =>
    show Value.text holder = p.holder.orDefault (.text "")
    rw [hholder, Value.orDefault_text]
  | id =>
    have hleft : p.id.moved.orDefault (.text "") = .text "" :=
      Value.orDefault_moved (hid ▸ Value.isEmpty_text_of_not_isTruthy) _
    show overrideText _ _ = p.id.orDefault (.text "")
    rw [hid, overrideText_claim (hid ▸ h.id)]
    exact congrArg _ (hfield.trans hleft)
  | context | type | submission | credentials | proof => exact hfield

end Claims

namespace Verify

/-- A presentation that the holder signed is read again: the same holder and identifier, and the same
credentials at their places, each of them an object if it was a credential. -/
theorem readPresentation_of_issue {w : Surroundings} {ecdsa : Crypto.P256.Signatures}
    {signerId kid algorithm : Value} {key : Held PrivateKey} {signer : Signer}
    {terms : Option PresentationTerms} {p : Presentation} {holder id token : String}
    {items : List Value} {s t : Session}
    (hsigner : Signer.ofKey w.registry ecdsa signerId key kid algorithm = .ok signer)
    (hproof : p.proof = .null) (hholder : p.holder = .text holder) (hname : holder ≠ "")
    (hid : p.id = .text id) (hitems : p.credentials = .list items)
    (hwell : ∀ f, (p.get f).WellFormed)
    (hissue : Issue.presentation w signer terms p s = (.ok token, t))
    (hlimits : Jws.WithinLimits (Text.Utf8.encode token.toList)) :
    ∃ result, readPresentation (.text token) = .ok result ∧
      result.presentation.holder = .text holder ∧
      result.presentation.id = .text id ∧
      result.presentation.context = p.context.orDefault .null ∧
      result.presentation.type = p.type.orDefault .null ∧
      result.presentation.submission = p.submission.orDefault .null ∧
      result.presentation.proof = .null ∧
      result.presentation.credentials = .list (items.map Presentation.plainCredential) := by
  obtain ⟨claims, header, hclaims, hheader, hsign⟩ := Issue.presentation_eq_ok hissue
  have htruthy : p.holder.isTruthy = true := by
    rw [hholder, Value.isTruthy_text]
    exact decide_eq_true hname
  obtain ⟨o, ho, hpresents⟩ := Issue.presents_of_presentationClaims hwell htruthy hclaims
  obtain ⟨k, a, -, hsigns⟩ := Signer.signs_of_sign hsigner hheader hsign
  have hread : ParsedToken.ofText token = .ok ⟨token, header, claims⟩ :=
    ParsedToken.ofText_eq_ok_iff.mpr
      ⟨_, hsigns.readFrom hheader hpresents.sound.wellFormed hpresents.sound.audience hlimits⟩
  obtain ⟨q, hq, hfields⟩ := Claims.toPresentation_of_presents hpresents hitems ho hholder hid
  refine ⟨⟨⟨token, header, claims⟩, q⟩, readPresentation_eq_ok_iff.mpr
    ⟨ParsedToken.ofValue_eq_ok_iff.mpr ⟨token, rfl, hread⟩, hq⟩, ?_, ?_, hfields .context,
    hfields .type, hfields .submission, ?_, ?_⟩
  · refine (hfields .holder).trans ?_
    show p.holder.orDefault (.text "") = _
    rw [hholder, Value.orDefault_text]
  · refine (hfields .id).trans ?_
    show p.id.orDefault (.text "") = _
    rw [hid, Value.orDefault_text]
  · refine (hfields .proof).trans ?_
    show p.proof.orDefault .null = _
    rw [hproof]
    rfl
  · refine (hfields .credentials).trans ?_
    rw [Presentation.get_plain, if_pos rfl]
    exact Value.orDefault_list _

/-- A presentation of a token and a credential. -/
def mixedPresentation : Presentation :=
  { Presentation.empty with
    holder := .text "a"
    credentials := .list [.text "x", .credential { Credential.empty with id := .text "c" }] }

/-- The token of this presentation at the epoch, signed with the secret number 1. -/
def mixedPresentationToken : String :=
  "eyJhbGciOiJFUzI1NiIsInR5cCI6IkpXVCIsImtpZCI6Ilx1MDBlOSJ9." ++
    "eyJpYXQiOiAwLCAibmJmIjogMCwgIm5vbmNlIjogIm4iLCAiaXNzIjogImEiLCAid" ++
    "nAiOiB7InZlcmlmaWFibGVDcmVkZW50aWFsIjogWyJ4IiwgeyJpZCI6ICJjIn1dfX0." ++
    "fPJ7GI0DT36KUjgDBLUaw8CJaeJ38hs1pgtI_EdmmXjiAdOEHryqi5okvleIW7owg29pTcGldti7aOkxA3U9cg"

/-- The credential in this presentation is read as an object. -/
theorem readPresentation_mixedPresentation : ∃ t result,
    Issue.presentation ⟨[.es256], "n", .int 0⟩ Signer.oneSigner none mixedPresentation .initial =
      (.ok mixedPresentationToken, t) ∧
    readPresentation (.text mixedPresentationToken) = .ok result ∧
    result.presentation.credentials = .list [.text "x", .object [("id", .text "c")]] := by
  have hsigner : Signer.ofKey [.es256] (.ofNonce 2) (.text "a") (.key (.p256 .one)) (.text "é")
      (.text "ES256") = .ok Signer.oneSigner := rfl
  obtain ⟨t, hissue⟩ : ∃ t, Issue.presentation ⟨[.es256], "n", .int 0⟩ Signer.oneSigner none
      mixedPresentation .initial = (.ok mixedPresentationToken, t) :=
    Run.exists_of_toOption (by decide +kernel)
  have hwell : ∀ f, (mixedPresentation.get f).WellFormed := by
    intro f
    cases f <;> decide
  obtain ⟨result, hread, -, -, -, -, -, -, hcredentials⟩ :=
    readPresentation_of_issue (w := ⟨[.es256], "n", .int 0⟩) (p := mixedPresentation) hsigner rfl rfl
      (by decide) rfl rfl hwell hissue (by decide +kernel)
  exact ⟨t, result, hissue, hread, hcredentials⟩

end Verify

end Attest
