import Attest.Proofs.Claims.Reading
import Attest.Proofs.Token.Parsed
import Attest.Proofs.Verification.Stages

/-! For whom a presentation is meant. Whether a verifier accepts the audience of a token depends on the
JSON value of one member of its payload, and on no value but four kinds of them is a presentation
verified. -/

namespace Attest

/-- The payload of a token is a JSON object. -/
def Value.HasPayload (token : Value) (claims : Claims) : Prop :=
  ∃ s c, token = .text s ∧ Jws.Extracted (Text.Utf8.encode s.toList) c ∧
    Json.readBytes Json.digitLimit c.payload = .ok (.object claims)

/-- The JSON object that the payload of a token is. -/
def Value.payload? (token : Value) : Option Claims := do
  let s ← token.text?
  let c ← (Jws.extract (Text.Utf8.encode s.toList)).toOption
  let v ← (Json.readBytes Json.digitLimit c.payload).toOption
  v.object?

theorem Value.payload?_eq_some_iff {token : Value} {claims : Claims} :
    token.payload? = some claims ↔ token.HasPayload claims := by
  unfold payload? HasPayload
  simp only [bind, Option.bind_eq_some_iff, Except.toOption_eq_some_iff, Jws.extract_eq_ok_iff]
  constructor
  · rintro ⟨s, hs, c, hc, v, hv, hclaims⟩
    cases token <;> cases hs
    cases v <;> cases hclaims
    exact ⟨s, c, rfl, hc, hv⟩
  · rintro ⟨s, c, rfl, hc, hv⟩
    exact ⟨s, rfl, c, hc, _, hv, rfl⟩

/-- A verifier admits an audience that is absent or that is an empty list, one text that it goes by,
and a list of texts of which it goes by one. -/
inductive Verifier.Admits (verifier : Verifier) : Option Value → Prop
  | absent : Admits verifier none
  | nobody : Admits verifier (some (.list []))
  | one {name : String} (h : verifier.GoesBy name) : Admits verifier (some (.text name))
  | several {names : List String} (h : ∃ name ∈ names, verifier.GoesBy name) :
      Admits verifier (some (.list (names.map .text)))

/-- The names that are read from a valid audience decide whether it is admitted. -/
theorem Claims.NamesAudience.admits_iff {audience : Option Value} {names : List String}
    (h : NamesAudience audience names) (verifier : Verifier) :
    verifier.Admits audience ↔ verifier.IsMeant names := by
  cases h with
  | absent => exact iff_of_true .absent (.inl rfl)
  | one name =>
    constructor
    · intro hadmits
      cases hadmits with
      | one hname => exact .inr ⟨name, List.mem_singleton_self name, hname⟩
    · rintro (hnil | ⟨_, hmem, hname⟩)
      · cases hnil
      · rw [List.mem_singleton] at hmem
        exact .one (hmem ▸ hname)
  | several names =>
    constructor
    · intro hadmits
      generalize hitems : names.map Value.text = items at hadmits
      cases hadmits with
      | nobody => exact .inl (List.map_eq_nil_iff.mp hitems)
      | several hsome =>
        rw [← filterMap_text? names, hitems, filterMap_text?]
        exact .inr hsome
    · rintro (rfl | hsome)
      · exact .nobody
      · exact .several hsome

namespace Verify

variable {r : Jws.Registry} {context : Option Context} {verifier : Verifier} {token : Value}

theorem hasPayload_of_readPresentation {result : ReadPresentation}
    (h : readPresentation token = .ok result) :
    token.HasPayload result.token.claims ∧
      Claims.NamesAudience (Object.get? result.token.claims "aud") result.token.audience := by
  obtain ⟨s, rfl, htext⟩ :=
    ParsedToken.ofValue_eq_ok_iff.mp (readPresentation_eq_ok_iff.mp h).1
  obtain ⟨c, hread⟩ := ParsedToken.ofText_eq_ok_iff.mp htext
  exact ⟨⟨s, c, rfl, hread.extracted, hread.claims⟩, Claims.hasValidAudience_iff.mp hread.audience⟩

/-- A presentation is verified only if the audience in the payload of its token is one that the
verifier admits. For every other audience the verification fails before any resolver is asked. -/
theorem presentation_audience (r : Jws.Registry) (context : Option Context) (verifier : Verifier)
    (resolver : Option Resolver) (token : Value) (s : Session) :
    (∀ result t, presentation r context verifier resolver token s = (.ok result, t) →
      ∃ claims, token.HasPayload claims ∧ verifier.Admits (Object.get? claims "aud")) ∧
    (∀ claims, token.HasPayload claims → ¬verifier.Admits (Object.get? claims "aud") →
      ∃ e t, presentation r context verifier resolver token s = (.error e, t) ∧
        t.asked = s.asked) := by
  constructor
  · intro result t h
    obtain ⟨-, hread, hmeant⟩ := stages_of_presentation_eq_ok h
    obtain ⟨hpayload, hnames⟩ := hasPayload_of_readPresentation hread
    exact ⟨_, hpayload, (hnames.admits_iff verifier).mpr hmeant⟩
  · intro claims hpayload hadmits
    cases resolver with
    | none => exact ⟨_, _, presentation_none, rfl⟩
    | some res =>
      cases hverify : verifier.verify token with
      | error e => exact ⟨_, _, presentation_of_verify_error hverify, rfl⟩
      | ok _ =>
        cases hread : readPresentation token with
        | error e => exact ⟨_, _, presentation_of_unreadable hverify hread, rfl⟩
        | ok result =>
          obtain ⟨hpayload', hnames⟩ := hasPayload_of_readPresentation hread
          rw [← Value.payload?_eq_some_iff] at hpayload hpayload'
          obtain rfl := Option.some.inj (hpayload.symm.trans hpayload')
          have hmeant : ¬verifier.IsMeant result.token.audience :=
            fun h => hadmits ((hnames.admits_iff verifier).mpr h)
          exact ⟨_, _, presentation_of_not_isMeant hverify hread hmeant, rfl⟩

/-- A token without a signature that is meant for `v`. -/
def tokenForV : String := "eyJhbGciOiJub25lIn0.eyJhdWQiOiJ2IiwiaXNzIjoiIiwidnAiOnt9fQ."

/-- A token without a signature of which the audience is null. -/
def tokenForNull : String := "eyJhbGciOiJub25lIn0.eyJhdWQiOm51bGx9."

theorem tokenForNull_hasPayload : ∃ claims, (Value.text tokenForNull).HasPayload claims ∧
    Object.get? claims "aud" = some .null := by
  have h : ((Value.text tokenForNull).payload?.bind fun o => Object.get? o "aud").any Value.isNull =
    true := by decide +kernel
  cases hclaims : (Value.text tokenForNull).payload? with
  | none =>
    rw [hclaims] at h
    cases h
  | some claims =>
    refine ⟨claims, Value.payload?_eq_some_iff.mp hclaims, ?_⟩
    rw [hclaims, Option.bind_some] at h
    cases haud : Object.get? claims "aud" with
    | none =>
      rw [haud] at h
      cases h
    | some v =>
      rw [haud] at h
      cases v with
      | null => rfl
      | _ => cases h

theorem presentation_audience_of_unsigned :
    (∃ result t, presentation [] none (.accepting (.text "v") .null) (some .ofKeys)
        (.text tokenForV) .initial = (.ok result, t) ∧
      ∃ claims, (Value.text tokenForV).HasPayload claims ∧
        (Verifier.accepting (.text "v") .null).Admits (Object.get? claims "aud")) ∧
    (∃ claims, (Value.text tokenForNull).HasPayload claims ∧
      ¬(Verifier.accepting (.text "v") .null).Admits (Object.get? claims "aud") ∧
      ∃ e t, presentation [] none (.accepting (.text "v") .null) (some .ofKeys)
        (.text tokenForNull) .initial = (.error e, t) ∧ t.asked = []) := by
  constructor
  · obtain ⟨result, t, h⟩ : ∃ result t, presentation [] none (.accepting (.text "v") .null)
        (some .ofKeys) (.text tokenForV) .initial = (.ok result, t) :=
      Run.exists_of_isOk (by decide +kernel)
    exact ⟨result, t, h, (presentation_audience _ _ _ _ _ _).1 result t h⟩
  · obtain ⟨claims, hpayload, haud⟩ := tokenForNull_hasPayload
    have hadmits : ¬(Verifier.accepting (.text "v") .null).Admits (Object.get? claims "aud") := by
      rw [haud]
      exact nofun
    exact ⟨claims, hpayload, hadmits, (presentation_audience _ _ _ _ _ _).2 claims hpayload hadmits⟩

end Verify

end Attest
