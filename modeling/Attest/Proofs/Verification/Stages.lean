import Attest.Proofs.Run
import Attest.Verify

/-! The stages of a verification one by one: when each of them passes, and what it leaves behind in the
session if it passes and if it does not. -/

namespace Attest

theorem Value.same_text {s : String} {v : Value} : (text s).same v = true ↔ v = text s := by
  cases v with
  | text t =>
    have h : (text s).same (text t) = (s == t) := by simp [same, sameScalar]
    rw [h, beq_iff_eq, text.injEq]
    exact eq_comm
  | _ => simp [same, sameScalar, whole?]

namespace Verifier

/-- A verifier goes by a name that is its identifier or the one of its key. -/
def GoesBy (verifier : Verifier) (name : String) : Prop :=
  verifier.id = .text name ∨ verifier.kid = .text name

/-- A verifier is meant by an audience that it is in, and by one that nobody is in. -/
def IsMeant (verifier : Verifier) (names : List String) : Prop :=
  names = [] ∨ ∃ name ∈ names, verifier.GoesBy name

end Verifier

/-- The session after a verifier found that an audience means it. -/
def Session.matched (s : Session) (verifier : Verifier) (names : List String) : Session :=
  if names.isEmpty then s else s.logged (.audienceMatched verifier.id)

@[simp] theorem Session.asked_matched (s : Session) (verifier : Verifier) (names : List String) :
    (s.matched verifier names).asked = s.asked := by
  unfold matched
  split <;> rfl

namespace Verify

variable {r : Jws.Registry} {context : Option Context} {verifier : Verifier} {resolver : Resolver}
  {token : Value} {s t : Session}

theorem signature_of_ok (h : verifier.verify token = .ok ()) :
    signature verifier token s = (.ok (), s.logged (.signatureVerified verifier.id)) := by
  simp [signature, h]

theorem signature_of_error {e : Error} (h : verifier.verify token = .error e) :
    signature verifier token s = (.error (.outerSignature e), s) := by
  simp [signature, h]

theorem signature_eq_ok_iff {u : Unit} :
    signature verifier token s = (.ok u, t) ↔
      verifier.verify token = .ok () ∧ t = s.logged (.signatureVerified verifier.id) := by
  cases hverify : verifier.verify token with
  | ok a =>
    rw [signature_of_ok hverify]
    constructor
    · rintro ⟨⟩
      exact ⟨rfl, rfl⟩
    · rintro ⟨-, rfl⟩
      rfl
  | error e =>
    rw [signature_of_error hverify]
    constructor
    · intro h
      cases h
    · rintro ⟨h, -⟩
      cases h

theorem audience_any_iff {names : List String} :
    (names.any fun n => (Value.text n).same verifier.id || (Value.text n).same verifier.kid) = true ↔
      ∃ name ∈ names, verifier.GoesBy name := by
  simp [Value.same_text, Verifier.GoesBy]

theorem audience_of_isMeant {names : List String} (h : verifier.IsMeant names) :
    audience verifier names s = (.ok (), s.matched verifier names) := by
  unfold audience Session.matched
  by_cases hnil : names.isEmpty = true
  · rw [if_pos hnil, if_pos hnil]
    rfl
  · rw [if_neg hnil, if_neg hnil, if_pos]
    · rfl
    · exact audience_any_iff.mpr (h.resolve_left fun hnames => hnil (by simp [hnames]))

theorem audience_of_not_isMeant {names : List String} (h : ¬verifier.IsMeant names) :
    audience verifier names s =
      (.error (.audienceMismatch verifier.id verifier.kid names), s) := by
  unfold audience
  rw [if_neg, if_neg]
  · rfl
  · exact fun hany => h (.inr (audience_any_iff.mp hany))
  · exact fun hnil => h (.inl (List.isEmpty_iff.mp hnil))

theorem isMeant_of_audience_eq_ok {names : List String} {u : Unit}
    (h : audience verifier names s = (.ok u, t)) : verifier.IsMeant names := by
  by_cases hmeant : verifier.IsMeant names
  · exact hmeant
  · rw [audience_of_not_isMeant hmeant] at h
    cases h

theorem readCredential_eq_ok_iff {result : ReadCredential} :
    readCredential token = .ok result ↔
      ParsedToken.ofValue token = .ok result.token ∧
        Claims.toCredential result.token.claims = .ok result.credential := by
  unfold readCredential
  simp only [Except.bind_eq_ok_iff]
  constructor
  · rintro ⟨parsed, hparsed, credential, hcredential, ⟨⟩⟩
    exact ⟨hparsed, hcredential⟩
  · rintro ⟨hparsed, hcredential⟩
    exact ⟨_, hparsed, _, hcredential, rfl⟩

theorem readPresentation_eq_ok_iff {result : ReadPresentation} :
    readPresentation token = .ok result ↔
      ParsedToken.ofValue token = .ok result.token ∧
        Claims.toPresentation result.token.claims = .ok result.presentation := by
  unfold readPresentation
  simp only [Except.bind_eq_ok_iff]
  constructor
  · rintro ⟨parsed, hparsed, presentation, hpresentation, ⟨⟩⟩
    exact ⟨hparsed, hpresentation⟩
  · rintro ⟨hparsed, hpresentation⟩
    exact ⟨_, hparsed, _, hpresentation, rfl⟩

theorem credential_eq_ok_iff {result : ReadCredential} :
    credential verifier token s = (.ok result, t) ↔
      verifier.verify token = .ok () ∧ readCredential token = .ok result ∧
        t = s.logged (.signatureVerified verifier.id) := by
  unfold credential
  simp only [Run.bind_eq_ok_iff, signature_eq_ok_iff, Run.ofExcept_eq_ok_iff]
  constructor
  · rintro ⟨_, _, ⟨hverify, rfl⟩, hread, rfl⟩
    exact ⟨hverify, hread, rfl⟩
  · rintro ⟨hverify, hread, rfl⟩
    exact ⟨(), _, ⟨hverify, rfl⟩, hread, rfl⟩

theorem presentation_none :
    presentation r context verifier none token s = (.error (.precondition .resolverGiven), s) := by
  rfl

/-- What follows the check of the outer signature. -/
theorem presentation_of_verify (h : verifier.verify token = .ok ()) :
    presentation r context verifier (some resolver) token s = (do
      let result ← Run.ofExcept (readPresentation token)
      audience verifier result.token.audience
      let credentials ← Run.ofExcept (result.presentation.credentials.elements.mapError .ofFault)
      allEmbedded r context (some resolver) 0 credentials
      return result : Run ReadPresentation) (s.logged (.signatureVerified verifier.id)) :=
  Run.bind_of_ok (signature_of_ok h)

theorem presentation_of_verify_error {e : Error} (h : verifier.verify token = .error e) :
    presentation r context verifier (some resolver) token s = (.error (.outerSignature e), s) :=
  Run.bind_of_error (signature_of_error h)

theorem presentation_of_unreadable {e : Error} (hverify : verifier.verify token = .ok ())
    (hread : readPresentation token = .error e) :
    presentation r context verifier (some resolver) token s =
      (.error e, s.logged (.signatureVerified verifier.id)) := by
  rw [presentation_of_verify hverify, hread, Run.ofExcept_bind_error]

theorem presentation_of_not_isMeant {result : ReadPresentation}
    (hverify : verifier.verify token = .ok ()) (hread : readPresentation token = .ok result)
    (hmeant : ¬verifier.IsMeant result.token.audience) :
    presentation r context verifier (some resolver) token s =
      (.error (.audienceMismatch verifier.id verifier.kid result.token.audience),
        s.logged (.signatureVerified verifier.id)) := by
  rw [presentation_of_verify hverify, hread, Run.ofExcept_bind_ok]
  exact Run.bind_of_error (audience_of_not_isMeant hmeant)

/-- What is left when all stages before the credentials have passed. -/
theorem presentation_of_isMeant {result : ReadPresentation} {items : List Value}
    (hverify : verifier.verify token = .ok ()) (hread : readPresentation token = .ok result)
    (hmeant : verifier.IsMeant result.token.audience)
    (hitems : result.presentation.credentials = .list items) :
    presentation r context verifier (some resolver) token s = (do
      allEmbedded r context (some resolver) 0 items
      return result : Run ReadPresentation)
        ((s.logged (.signatureVerified verifier.id)).matched verifier result.token.audience) := by
  rw [presentation_of_verify hverify, hread, Run.ofExcept_bind_ok,
    Run.bind_of_ok (audience_of_isMeant hmeant), hitems]
  rfl

/-- A presentation that is verified has passed each of the stages before its credentials. -/
theorem stages_of_presentation_eq_ok {resolver : Option Resolver} {result : ReadPresentation}
    (h : presentation r context verifier resolver token s = (.ok result, t)) :
    verifier.verify token = .ok () ∧ readPresentation token = .ok result ∧
      verifier.IsMeant result.token.audience := by
  cases resolver with
  | none =>
    rw [presentation_none] at h
    cases h
  | some res =>
    cases hverify : verifier.verify token with
    | error e =>
      rw [presentation_of_verify_error hverify] at h
      cases h
    | ok a =>
      rw [presentation_of_verify hverify] at h
      simp only [Run.bind_eq_ok_iff, Run.ofExcept_eq_ok_iff] at h
      obtain ⟨_, _, ⟨hread, rfl⟩, _, _, haudience, _, _, _, _, _, _, ⟨⟩⟩ := h
      exact ⟨rfl, hread, isMeant_of_audience_eq_ok haudience⟩

end Verify

end Attest
