import Attest.Proofs.Calendar.Range
import Attest.Proofs.Claims.Fields

/-! The claim sets of which no credential or no presentation is made. Only the claim that holds it, and
for a presentation the claim that names its holder, is checked. Every other claim is read as far as it
makes sense: a claim for a date gives one exactly if it is a number in the calendar, and then this date
can be written. -/

namespace Attest

namespace Credential

/-- Why a value is no credential: it is no object, or its subject is neither an object nor null. -/
inductive Misshapen : Value → Value.Fault → Prop
  | notObject {v : Value} (h : v.object? = none) : Misshapen v (.notObject v.typeName)
  | subject {o : Object} {v : Value} (hsubject : Object.get? o "credentialSubject" = some v)
    (hnull : v.isNull = false) (hobject : v.object? = none) :
    Misshapen (.object o) (.subjectNotObject v.typeName)

theorem subject_ofMembers (o : Object) :
    (ofMembers o).subject = (Object.get? o "credentialSubject").getD (.object []) := rfl

theorem ofValue_of_subject_null {o : Object} (h : (ofMembers o).subject = .null) :
    ofValue (.object o) = .ok ((ofMembers o).set .subject (.object [])) := by
  unfold ofValue
  simp only [h]

theorem ofValue_of_misshapen {v : Value} {f : Value.Fault} (h : Misshapen v f) :
    ofValue v = .error f := by
  cases h with
  | notObject h =>
    cases v with
    | object => cases h
    | _ => rfl
  | @subject o v hsubject hnull hobject =>
    have hv : (ofMembers o).subject = v := by
      rw [subject_ofMembers, hsubject]
      rfl
    unfold ofValue
    dsimp only
    rw [hv]
    cases v with
    | object => cases hobject
    | null => cases hnull
    | _ => rfl

theorem exists_ofValue_or_misshapen (v : Value) :
    (∃ c, ofValue v = .ok c) ∨ ∃ f, Misshapen v f := by
  cases v with
  | object o =>
    cases hsubject : Object.get? o "credentialSubject" with
    | none =>
      have hv : (ofMembers o).subject = .object [] := by
        rw [subject_ofMembers, hsubject]
        rfl
      exact .inl ⟨_, ofValue_of_subject hv⟩
    | some w =>
      have hv : (ofMembers o).subject = w := by
        rw [subject_ofMembers, hsubject]
        rfl
      cases w with
      | object => exact .inl ⟨_, ofValue_of_subject hv⟩
      | null => exact .inl ⟨_, ofValue_of_subject_null hv⟩
      | _ => exact .inr ⟨_, .subject hsubject rfl rfl⟩
  | _ => exact .inr ⟨_, .notObject rfl⟩

theorem ofValue_eq_error_iff {v : Value} {f : Value.Fault} :
    ofValue v = .error f ↔ Misshapen v f := by
  refine ⟨fun h => ?_, ofValue_of_misshapen⟩
  rcases exists_ofValue_or_misshapen v with ⟨c, hc⟩ | ⟨g, hg⟩
  · cases h.symm.trans hc
  · exact Except.error.inj (h.symm.trans (ofValue_of_misshapen hg)) ▸ hg

theorem exists_ofValue_iff {v : Value} : (∃ c, ofValue v = .ok c) ↔ ∃ o, v = .object o ∧
    ∀ w, Object.get? o "credentialSubject" = some w → w = .null ∨ ∃ subject, w = .object subject := by
  constructor
  · rintro ⟨c, hc⟩
    have hshape (f : Value.Fault) : ¬Misshapen v f := fun h => by
      cases hc.symm.trans (ofValue_of_misshapen h)
    cases v with
    | object o =>
      refine ⟨o, rfl, fun w hw => ?_⟩
      cases w with
      | null => exact .inl rfl
      | object subject => exact .inr ⟨subject, rfl⟩
      | _ => exact absurd (.subject hw rfl rfl) (hshape _)
    | _ => exact absurd (.notObject rfl) (hshape _)
  · rintro ⟨o, rfl, hsubject⟩
    refine (exists_ofValue_or_misshapen (.object o)).resolve_right ?_
    rintro ⟨f, hf⟩
    cases hf with
    | notObject h => cases h
    | subject hw hnull hobject =>
      rcases hsubject _ hw with rfl | ⟨subject, rfl⟩
      · cases hnull
      · cases hobject

end Credential

namespace Presentation

/-- A presentation is read from every object, and from nothing else. -/
theorem ofValue_eq_error_iff {v : Value} {f : Value.Fault} :
    ofValue v = .error f ↔ v.object? = none ∧ f = .notObject v.typeName := by
  cases v with
  | object o =>
    obtain ⟨p, hp⟩ := exists_ofValue o
    exact iff_of_false (fun h => nomatch hp.symm.trans h) fun h => nomatch h.1
  | _ => exact ⟨fun h => ⟨rfl, (Except.error.inj h).symm⟩, fun h => congrArg Except.error h.2.symm⟩

end Presentation

namespace Claims

/-- Why a claim set holds no credential. -/
inductive LacksCredential (claims : Claims) : TokenProblem → Prop
  | absent (h : Object.get? claims "vc" = none) : LacksCredential claims (.missingClaim "vc")
  | misshapen {v : Value} {f : Value.Fault} (hvc : Object.get? claims "vc" = some v)
    (h : Credential.Misshapen v f) : LacksCredential claims (.content .credential f)

/-- Why a claim set holds no presentation. -/
inductive LacksPresentation (claims : Claims) : TokenProblem → Prop
  | absent (h : Object.get? claims "vp" = none) : LacksPresentation claims (.missingClaim "vp")
  | notObject {v : Value} (hvp : Object.get? claims "vp" = some v) (h : v.object? = none) :
    LacksPresentation claims (.content .presentation (.notObject v.typeName))
  | noHolder {o : Object} (hvp : Object.get? claims "vp" = some (.object o))
    (h : Object.get? claims "iss" = none) : LacksPresentation claims (.missingClaim "iss")
  | holder {o : Object} {v : Value} (hvp : Object.get? claims "vp" = some (.object o))
    (hiss : Object.get? claims "iss" = some v) (h : v.isText = false) :
    LacksPresentation claims .issuerNotText

section Decoding

variable {claims : Claims}

theorem toCredential_eq_error_iff {e : Error} :
    toCredential claims = .error e ↔ ∃ p, LacksCredential claims p ∧ e = .token p := by
  unfold toCredential
  constructor
  · intro h
    split at h
    · rename_i habsent
      exact ⟨_, .absent habsent, (Except.error.inj h).symm⟩
    · rename_i v hv
      split at h
      · rename_i f hf
        exact ⟨_, .misshapen hv (Credential.ofValue_eq_error_iff.mp hf), (Except.error.inj h).symm⟩
      · cases h
  · rintro ⟨p, h, rfl⟩
    cases h with
    | absent habsent => rw [habsent]
    | misshapen hvc hshape => simp only [hvc, Credential.ofValue_of_misshapen hshape]

theorem exists_credential_iff :
    (∃ c, toCredential claims = .ok c) ↔ ∃ o, Object.get? claims "vc" = some (.object o) ∧
      ∀ v, Object.get? o "credentialSubject" = some v →
        v = .null ∨ ∃ subject, v = .object subject := by
  simp only [toCredential_eq_ok_iff]
  constructor
  · rintro ⟨_, o, d, hvc, hd, rfl⟩
    obtain ⟨_, ⟨⟩, hsubject⟩ := Credential.exists_ofValue_iff.mp ⟨d, hd⟩
    exact ⟨o, hvc, hsubject⟩
  · rintro ⟨o, hvc, hsubject⟩
    obtain ⟨d, hd⟩ := Credential.exists_ofValue_iff.mpr ⟨o, rfl, hsubject⟩
    exact ⟨_, o, d, hvc, hd, rfl⟩

theorem toPresentation_of_holder {o : Object} {s : String}
    (hvp : Object.get? claims "vp" = some (.object o))
    (hiss : Object.get? claims "iss" = some (.text s)) : ∃ q, toPresentation claims = .ok q := by
  obtain ⟨p, hp⟩ := Presentation.exists_ofValue o
  unfold toPresentation
  simp only [hvp, hp, hiss]
  exact ⟨_, rfl⟩

theorem toPresentation_of_lacks {p : TokenProblem} (h : LacksPresentation claims p) :
    toPresentation claims = .error (.token p) := by
  unfold toPresentation
  cases h with
  | absent habsent => rw [habsent]
  | notObject hvp hobject =>
    simp only [hvp, Presentation.ofValue_eq_error_iff.mpr ⟨hobject, rfl⟩]
  | @noHolder o hvp hiss =>
    obtain ⟨p, hp⟩ := Presentation.exists_ofValue o
    simp only [hvp, hp, hiss]
  | @holder o v hvp hiss htext =>
    obtain ⟨p, hp⟩ := Presentation.exists_ofValue o
    simp only [hvp, hp, hiss]
    cases v with
    | text => cases htext
    | _ => rfl

theorem holder_or_lacks (claims : Claims) :
    ((∃ o, Object.get? claims "vp" = some (.object o)) ∧
      ∃ s, Object.get? claims "iss" = some (.text s)) ∨ ∃ p, LacksPresentation claims p := by
  cases hvp : Object.get? claims "vp" with
  | none => exact .inr ⟨_, .absent hvp⟩
  | some v =>
    cases v with
    | object o =>
      cases hiss : Object.get? claims "iss" with
      | none => exact .inr ⟨_, .noHolder hvp hiss⟩
      | some w =>
        cases w with
        | text s => exact .inl ⟨⟨o, rfl⟩, s, rfl⟩
        | _ => exact .inr ⟨_, .holder hvp hiss rfl⟩
    | _ => exact .inr ⟨_, .notObject hvp rfl⟩

theorem exists_presentation_iff :
    (∃ q, toPresentation claims = .ok q) ↔ (∃ o, Object.get? claims "vp" = some (.object o)) ∧
      ∃ s, Object.get? claims "iss" = some (.text s) := by
  constructor
  · rintro ⟨q, hq⟩
    refine (holder_or_lacks claims).resolve_right ?_
    rintro ⟨p, hp⟩
    cases hq.symm.trans (toPresentation_of_lacks hp)
  · rintro ⟨⟨o, hvp⟩, s, hiss⟩
    exact toPresentation_of_holder hvp hiss

theorem toPresentation_eq_error_iff {e : Error} :
    toPresentation claims = .error e ↔ ∃ p, LacksPresentation claims p ∧ e = .token p := by
  constructor
  · intro h
    rcases holder_or_lacks claims with hholder | ⟨p, hp⟩
    · obtain ⟨q, hq⟩ := exists_presentation_iff.mpr hholder
      cases hq.symm.trans h
    · exact ⟨p, hp, Except.error.inj (h.symm.trans (toPresentation_of_lacks hp))⟩
  · rintro ⟨p, hp, rfl⟩
    exact toPresentation_of_lacks hp

theorem time?_eq_some_iff {name : String} {t : DateTime} : time? claims name = some t ↔
    ∃ n, (Object.getD claims name).number? = some n ∧ DateTime.ofNumber n = .ok t := by
  unfold time?
  cases (Object.getD claims name).number? with
  | none => exact iff_of_false nofun fun ⟨_, h, _⟩ => nomatch h
  | some n =>
    rw [Except.toOption_eq_some_iff]
    exact ⟨fun h => ⟨n, rfl, h⟩, fun ⟨_, hn, h⟩ => Option.some.inj hn ▸ h⟩

/-- A claim gives a date exactly if it is a number in the calendar. -/
theorem isSome_time?_iff {name : String} : (time? claims name).isSome = true ↔
    ∃ n, (Object.getD claims name).number? = some n ∧ n.isInCalendar = true := by
  rw [Option.isSome_iff_exists]
  simp only [time?_eq_some_iff, ← DateTime.exists_ofNumber_iff]
  constructor
  · rintro ⟨t, n, hn, ht⟩
    exact ⟨n, hn, t, ht⟩
  · rintro ⟨n, hn, t, ht⟩
    exact ⟨t, n, hn, ht⟩

theorem format_of_time? {name : String} {t : DateTime} (h : time? claims name = some t) :
    t.format = .ok t.universalText := by
  obtain ⟨n, -, ht⟩ := time?_eq_some_iff.mp h
  exact DateTime.format_of_universal (DateTime.offset_of_ofNumber ht)

end Decoding

/-- Making a credential or a presentation of a claim set fails exactly if the claim set lacks it, and is
then reported as a token that cannot be read. No other claim is in the way: one for a date either gives
none or one that can be written. -/
theorem decoding_fails_iff (claims : Claims) :
    ((∃ c, toCredential claims = .ok c) ↔ ∃ o, Object.get? claims "vc" = some (.object o) ∧
      ∀ v, Object.get? o "credentialSubject" = some v →
        v = .null ∨ ∃ subject, v = .object subject) ∧
    (∀ e, toCredential claims = .error e ↔ ∃ p, LacksCredential claims p ∧ e = .token p) ∧
    ((∃ q, toPresentation claims = .ok q) ↔ (∃ o, Object.get? claims "vp" = some (.object o)) ∧
      ∃ s, Object.get? claims "iss" = some (.text s)) ∧
    (∀ e, toPresentation claims = .error e ↔ ∃ p, LacksPresentation claims p ∧ e = .token p) ∧
    ∀ name, ((time? claims name).isSome = true ↔
        ∃ n, (Object.getD claims name).number? = some n ∧ n.isInCalendar = true) ∧
      ∀ t, time? claims name = some t → t.format = .ok t.universalText :=
  ⟨exists_credential_iff, fun _ => toCredential_eq_error_iff, exists_presentation_iff,
    fun _ => toPresentation_eq_error_iff, fun _ => ⟨isSome_time?_iff, fun _ => format_of_time?⟩⟩

/-- The first second after the calendar is no date, and in nobody's way. -/
theorem decoding_fails_lateDate :
    let claims : Claims := [("iat", .int 0), ("exp", .int calendarEnd), ("vc", .object [])]
    (∃ c, toCredential claims = .ok c) ∧ (time? claims "exp").isSome = false ∧
      ∃ t, time? claims "iat" = some t ∧ t.format = .ok t.universalText := by
  intro claims
  obtain ⟨hcredential, -, -, -, htime⟩ := decoding_fails_iff claims
  refine ⟨hcredential.mpr ⟨[], rfl, nofun⟩, ?_, ?_⟩
  · refine Bool.eq_false_iff.mpr fun hsome => ?_
    obtain ⟨n, hn, hrange⟩ := (htime "exp").1.mp hsome
    obtain rfl := Option.some.inj hn
    exact absurd hrange (by decide +kernel)
  · obtain ⟨t, ht⟩ := Option.isSome_iff_exists.mp ((htime "iat").1.mpr ⟨_, rfl, by decide +kernel⟩)
    exact ⟨t, ht, (htime "iat").2 t ht⟩

end Claims

end Attest
