import Attest.Proofs.Claims.Promoted
import Attest.Proofs.Number.Digits
import Attest.Proofs.Token.Failure

/-! Values that are no dates. Such a value is reported as one that does not fit the claim, but for two
exceptions: a floating point number without whole part, and a text of digits that stand for no second of
the calendar. A credential has no claim set for one of the reasons that it should not have one, unless
the first of its fields that does not fit its claim is such a date. -/

namespace Attest

namespace Claims

/-- Only digits are left of a text when its blank ends are removed. -/
structure OnlyDigits (s : String) : Prop where
  nonempty : Text.strip s.toList ≠ []
  digits : ∀ c ∈ Text.strip s.toList, Text.isDigit c = true

/-- A value that is not reported as one that does not fit the claim, although it is no date. -/
inductive EscapesDate : Value → Prop
  | notFinite {x : Binary64} (h : x.isFinite = false) : EscapesDate (.float x)
  | notDecimal {s : String} (hdigits : OnlyDigits s)
    (h : ∃ c ∈ Text.strip s.toList, isDecimal c = false) : EscapesDate (.text s)
  | tooLong {s : String} (hdigits : OnlyDigits s)
    (h : Json.digitLimit < (Text.strip s.toList).length) : EscapesDate (.text s)
  | late {s : String} (hdigits : OnlyDigits s)
    (h : calendarEnd ≤ decimalNumber 0 (Text.strip s.toList)) : EscapesDate (.text s)

section Text

variable {name s : String}

theorem onlyDigits_iff : OnlyDigits s ↔
    (!(Text.strip s.toList).isEmpty && (Text.strip s.toList).all Text.isDigit) = true := by
  rw [Bool.and_eq_true, Bool.not_eq_true', Bool.eq_false_iff, Ne, List.isEmpty_iff,
    List.all_eq_true]
  exact ⟨fun h => ⟨h.nonempty, h.digits⟩, fun h => ⟨h.1, h.2⟩⟩

theorem readDate_of_onlyDigits (h : OnlyDigits s) :
    readDate name s = ((readDigits (Text.strip s.toList)).mapError (.basic ∘ .literal) >>= fun n =>
      (DateTime.ofSeconds n 0).mapError (.basic ∘ .range)) := by
  unfold readDate
  simp only [onlyDigits_iff.mp h, if_true]
  cases readDigits (Text.strip s.toList) <;> rfl

theorem exists_readDate_iff (h : OnlyDigits s) :
    (∃ t, readDate name s = .ok t) ↔ (∀ c ∈ Text.strip s.toList, isDecimal c = true) ∧
      (Text.strip s.toList).length ≤ Json.digitLimit ∧
      decimalNumber 0 (Text.strip s.toList) < calendarEnd := by
  have hrange (n : Nat) : (∃ t, DateTime.ofSeconds n 0 = .ok t) ↔
      calendarStart ≤ (n : Int) ∧ (n : Int) < calendarEnd :=
    DateTime.exists_ofSeconds_iff microsecondsPerSecond_pos
  simp only [readDate_of_onlyDigits h, Except.bind_eq_ok_iff, Except.mapError_eq_ok_iff,
    readDigits_eq_ok_iff]
  constructor
  · rintro ⟨t, n, ⟨-, hdecimal, hlimit, rfl⟩, ht⟩
    exact ⟨hdecimal, hlimit, ((hrange _).mp ⟨t, ht⟩).2⟩
  · rintro ⟨hdecimal, hlimit, hend⟩
    obtain ⟨t, ht⟩ := (hrange _).mpr ⟨by unfold calendarStart; omega, hend⟩
    exact ⟨t, _, ⟨h.nonempty, hdecimal, hlimit, rfl⟩, ht⟩

theorem escapesDate_text_iff (name s : String) :
    EscapesDate (.text s) ↔ OnlyDigits s ∧ ¬∃ t, readDate name s = .ok t := by
  constructor
  · intro h
    cases h with
    | notDecimal hdigits h =>
      obtain ⟨c, hc, hdecimal⟩ := h
      refine ⟨hdigits, fun hread => ?_⟩
      exact Bool.false_ne_true (hdecimal.symm.trans (((exists_readDate_iff hdigits).mp hread).1 c hc))
    | tooLong hdigits h =>
      exact ⟨hdigits, fun hread => Nat.not_le.mpr h ((exists_readDate_iff hdigits).mp hread).2.1⟩
    | late hdigits h =>
      exact ⟨hdigits, fun hread => Int.not_lt.mpr h ((exists_readDate_iff hdigits).mp hread).2.2⟩
  · rintro ⟨hdigits, hread⟩
    rw [exists_readDate_iff hdigits] at hread
    by_cases hdecimal : ∀ c ∈ Text.strip s.toList, isDecimal c = true
    · by_cases hlimit : (Text.strip s.toList).length ≤ Json.digitLimit
      · exact .late hdigits (Int.not_lt.mp fun hend => hread ⟨hdecimal, hlimit, hend⟩)
      · exact .tooLong hdigits (Nat.not_le.mp hlimit)
    · simp only [Classical.not_forall, Bool.not_eq_true] at hdecimal
      obtain ⟨c, hc, hc'⟩ := hdecimal
      exact .notDecimal hdigits ⟨c, hc, hc'⟩

theorem readDate_eq_error_of_onlyDigits (h : OnlyDigits s) {e : Error}
    (he : readDate name s = .error e) : ∃ cause, e = .basic cause := by
  rw [readDate_of_onlyDigits h, Except.bind_eq_error_iff] at he
  rcases he with he | ⟨n, -, he⟩
  · obtain ⟨cause, -, rfl⟩ := Except.mapError_eq_error_iff.mp he
    exact ⟨.literal cause, rfl⟩
  · obtain ⟨cause, -, rfl⟩ := Except.mapError_eq_error_iff.mp he
    exact ⟨.range cause, rfl⟩

theorem readDate_eq_error_of_not_onlyDigits (h : ¬OnlyDigits s) {e : Error}
    (he : readDate name s = .error e) : e = .claim name (some (.invalidDate s)) := by
  unfold readDate at he
  dsimp only at he
  rw [if_neg (onlyDigits_iff.not.mp h)] at he
  split at he
  · cases he
  · exact (Except.error.inj he).symm

end Text

theorem truncate_eq_error_iff {x : Binary64} :
    (∃ cause, x.truncate = .error cause) ↔ x.isFinite = false := by
  cases x with
  | nan => exact iff_of_true ⟨_, rfl⟩ rfl
  | infinity => exact iff_of_true ⟨_, rfl⟩ rfl
  | finite negative e f =>
    refine iff_of_false ?_ nofun
    rintro ⟨cause, h⟩
    cases (DateTime.truncate_finite negative e f).symm.trans h

/-- A value that is no date is reported as such unless it escapes, and then it is not. -/
theorem numericDate_eq_error {name : String} {v : Value} {e : Error}
    (h : numericDate name v = .error e) :
    ((∃ problem, e = .claim name (some problem)) ∧ ¬EscapesDate v) ∨
      ((∃ cause, e = .basic cause) ∧ EscapesDate v) := by
  cases v with
  | text s =>
    have hread : readDate name s = .error e := Except.map_eq_error_iff.mp h
    by_cases hdigits : OnlyDigits s
    · refine .inr ⟨readDate_eq_error_of_onlyDigits hdigits hread, ?_⟩
      refine (escapesDate_text_iff name s).mpr ⟨hdigits, ?_⟩
      rintro ⟨t, ht⟩
      cases hread.symm.trans ht
    · refine .inl ⟨⟨_, readDate_eq_error_of_not_onlyDigits hdigits hread⟩, fun hescapes => ?_⟩
      exact hdigits ((escapesDate_text_iff name s).mp hescapes).1
  | float x =>
    obtain ⟨cause, hcause, rfl⟩ := Except.mapError_eq_error_iff.mp h
    exact .inr ⟨⟨_, rfl⟩, .notFinite (truncate_eq_error_iff.mp ⟨cause, hcause⟩)⟩
  | int | time => cases h
  | bool | null | list | object | credential =>
    obtain rfl := Except.error.inj h
    exact .inl ⟨⟨_, rfl⟩, nofun⟩

theorem numericDate_of_escapesDate {v : Value} (h : EscapesDate v) (name : String) :
    ∃ cause, numericDate name v = .error (.basic cause) := by
  have hnone : ¬∃ n, numericDate name v = .ok n := by
    rintro ⟨n, hn⟩
    cases v with
    | text s =>
      obtain ⟨t, ht, -⟩ := Except.map_eq_ok_iff.mp hn
      exact ((escapesDate_text_iff name s).mp h).2 ⟨t, ht⟩
    | float x =>
      cases h with
      | notFinite h =>
        obtain ⟨cause, hcause⟩ := truncate_eq_error_iff.mpr h
        cases hcause.symm.trans (Except.mapError_eq_ok_iff.mp hn)
    | _ => cases h
  cases hdate : numericDate name v with
  | ok n => exact absurd ⟨n, hdate⟩ hnone
  | error e =>
    rcases numericDate_eq_error hdate with ⟨-, hnot⟩ | ⟨⟨cause, rfl⟩, -⟩
    · exact absurd h hnot
    · exact ⟨cause, rfl⟩

theorem not_escapesDate_of_numericDate {name : String} {v : Value} {n : Int}
    (h : numericDate name v = .ok n) : ¬EscapesDate v := by
  intro hescapes
  obtain ⟨cause, hcause⟩ := numericDate_of_escapesDate hescapes name
  cases h.symm.trans hcause

theorem isTruthy_of_escapesDate {v : Value} (h : EscapesDate v) : v.isTruthy = true := by
  have htext {s : String} (hdigits : OnlyDigits s) : (Value.text s).isTruthy = true := by
    rw [Value.isTruthy_text]
    refine decide_eq_true fun hs => hdigits.nonempty ?_
    rw [hs]
    rfl
  cases h with
  | @notFinite x h =>
    cases x with
    | nan | infinity => rfl
    | finite => cases h
  | notDecimal hdigits | tooLong hdigits | late hdigits => exact htext hdigits

end Claims

/-- An error that objects to a credential or to the value of one of its fields. -/
def Error.IsObjection (e : Error) : Prop := e.kind = .precondition ∨ e.kind = .claim

theorem Error.not_isObjection_basic (cause : BasicError) : ¬(Error.basic cause).IsObjection := by
  have hlibrary := cause.kind_isA_library
  rintro (hkind | hkind) <;>
  · rw [show cause.kind = _ from hkind] at hlibrary
    cases hlibrary

namespace Claims

/-- A date can be moved to a claim: it counts as false, so that it is not moved, or it is read. -/
def FitsTime (name : String) (v : Value) : Prop :=
  v.isTruthy = true → ∃ n, numericDate name v = .ok n

/-- A name can be moved to a claim. -/
def FitsName (v : Value) : Prop := v.isTruthy = true → v.isText = true

/-- A credential to which nobody objects, although it has no claim set: its first field that does not
fit its claim is a date that escapes. -/
inductive Escapes (c : Credential) : Prop
  | expiration (hproof : c.proof.isNull = true) (h : EscapesDate c.expirationDate)
  | issuance (hproof : c.proof.isNull = true) (hexp : FitsTime "exp" c.expirationDate)
    (hiss : FitsName c.issuer) (h : EscapesDate c.issuanceDate)

/-- Why a credential whose subject is an object has no claim set. Its fields are moved to their claims
one after the other, so that the first that does not fit is the reason. -/
inductive Refused (c : Credential) : Error → Prop
  | empty (h : c.isEmpty = true) : Refused c (.precondition (.notEmpty .credential))
  | proof (h : c.proof.isNull = false) : Refused c (.precondition (.noProof .credential))
  | expiration {e : Error} (hproof : c.proof.isNull = true)
    (htruthy : c.expirationDate.isTruthy = true)
    (h : numericDate "exp" c.expirationDate = .error e) : Refused c e
  | issuer (hexp : FitsTime "exp" c.expirationDate) (h : ¬FitsName c.issuer) :
    Refused c (.claim "iss" (some (.notText c.issuer.typeName)))
  | issuance {e : Error} (hproof : c.proof.isNull = true) (hexp : FitsTime "exp" c.expirationDate)
    (hiss : FitsName c.issuer) (h : numericDate "iat" c.issuanceDate = .error e) : Refused c e
  | id (hexp : FitsTime "exp" c.expirationDate) (hiat : FitsTime "iat" c.issuanceDate) :
    Refused c (.claim "jti" (some (.notText c.id.typeName)))

section Setting

variable {claims : Claims} {name : String} {v : Value} {e : Error}

theorem setIfTruthy_eq_error_iff :
    setIfTruthy claims name v = .error e ↔ v.isTruthy = true ∧ normalize name v = .error e := by
  unfold setIfTruthy set
  cases v.isTruthy with
  | true => exact Except.map_eq_error_iff.trans (and_iff_right rfl).symm
  | false => exact iff_of_false nofun fun h => nomatch h.1

theorem setTime_eq_error (htime : isTime name = true) (h : setIfTruthy claims name v = .error e) :
    v.isTruthy = true ∧ numericDate name v = .error e := by
  rw [setIfTruthy_eq_error_iff, normalize_time htime, Except.map_eq_error_iff] at h
  exact h

theorem setName_eq_error (hname : isName name = true) (h : setIfTruthy claims name v = .error e) :
    ¬FitsName v ∧ e = .claim name (some (.notText v.typeName)) := by
  obtain ⟨htruthy, h⟩ := setIfTruthy_eq_error_iff.mp h
  rw [normalize_name_eq hname] at h
  split at h
  · cases h
  · rename_i htext
    exact ⟨fun hfits => htext (hfits htruthy), (Except.error.inj h).symm⟩

theorem fitsTime_of_set {claims' : Claims} (htime : isTime name = true)
    (h : setIfTruthy claims name v = .ok claims') : FitsTime name v := by
  intro htruthy
  obtain ⟨w, hw, -⟩ := setIfTruthy_eq_ok_iff.mp h
  obtain ⟨n, hn, -⟩ := exists_numericDate_of_normalize htime (hw htruthy)
  exact ⟨n, hn⟩

theorem fitsName_of_set {claims' : Claims} (hname : isName name = true)
    (h : setIfTruthy claims name v = .ok claims') : FitsName v := by
  intro htruthy
  obtain ⟨w, hw, -⟩ := setIfTruthy_eq_ok_iff.mp h
  exact ((normalize_name hname).mp (hw htruthy)).1

theorem FitsTime.not_escapesDate (h : FitsTime name v) : ¬EscapesDate v := by
  intro hescapes
  obtain ⟨n, hn⟩ := h (isTruthy_of_escapesDate hescapes)
  exact not_escapesDate_of_numericDate hn hescapes

end Setting

theorem exists_subjectId {c : Credential} {o : Object} (h : c.subject = .object o) :
    ∃ s, c.subjectId = .ok s := by
  unfold Credential.subjectId Credential.identifierOf
  rw [h]
  split
  · dsimp only
    split
    · exact ⟨_, rfl⟩
    · exact ⟨_, rfl⟩
  · exact ⟨_, rfl⟩

theorem refused_of_ofCredential {nonce : String} {c : Credential} {o : Object}
    (hsubject : c.subject = .object o) {e : Error} (h : ofCredential nonce c = .error e) :
    Refused c e := by
  obtain ⟨subjectId, hid⟩ := exists_subjectId hsubject
  have huntyped {claims : Claims} {name : String} {v : Value} (htime : isTime name = false)
      (hname : isName name = false) (haud : name ≠ "aud") : set claims name v ≠ .error e := by
    rw [set_untyped htime hname haud]
    nofun
  cases hempty : c.isEmpty with
  | true =>
    rw [ofCredential, hempty] at h
    exact Except.error.inj h ▸ .empty hempty
  | false =>
    cases hproof : c.proof.isNull with
    | false =>
      rw [ofCredential, hempty, hproof] at h
      exact Except.error.inj h ▸ .proof hproof
    | true =>
      simp only [ofCredential, hempty, hproof, hid, Bool.false_eq_true, if_false, Bool.not_true,
        Except.mapError_ok] at h
      rcases Except.bind_eq_error_iff.mp h with h | ⟨_, hexp, h⟩
      · exact .expiration hproof (setTime_eq_error rfl h).1 (setTime_eq_error rfl h).2
      have hexp := fitsTime_of_set rfl hexp
      rcases Except.bind_eq_error_iff.mp h with h | ⟨_, -, h⟩
      · exact absurd h (huntyped rfl rfl (by decide))
      rcases Except.bind_eq_error_iff.mp h with h | ⟨_, hiss, h⟩
      · exact (setName_eq_error rfl h).2 ▸ .issuer hexp (setName_eq_error rfl h).1
      have hiss := fitsName_of_set rfl hiss
      rcases Except.bind_eq_error_iff.mp h with h | ⟨_, hiat, h⟩
      · exact .issuance hproof hexp hiss (setTime_eq_error rfl h).2
      have hiat := fitsTime_of_set rfl hiat
      rcases Except.bind_eq_error_iff.mp h with h | ⟨_, -, h⟩
      · obtain ⟨htruthy, h⟩ := setTime_eq_error rfl h
        obtain ⟨n, hn⟩ := hiat htruthy
        cases (numericDate_congr hn "nbf").symm.trans h
      rcases Except.bind_eq_error_iff.mp h with h | ⟨_, -, h⟩
      · exact (setName_eq_error rfl h).2 ▸ .id hexp hiat
      rcases Except.bind_eq_error_iff.mp h with h | ⟨_, -, h⟩
      · cases h
      rcases Except.bind_eq_error_iff.mp h with h | ⟨_, -, h⟩
      · exact absurd (fun _ => rfl) (setName_eq_error rfl h).1
      · exact absurd h (huntyped rfl rfl (by decide))

theorem not_escapes {c : Credential} (hexp : ¬EscapesDate c.expirationDate)
    (hiat : FitsTime "exp" c.expirationDate → FitsName c.issuer → ¬EscapesDate c.issuanceDate) :
    ¬Escapes c := by
  intro hescapes
  cases hescapes with
  | expiration _ h => exact hexp h
  | issuance _ hfits hiss h => exact hiat hfits hiss h

theorem not_escapes_of_isEmpty {c : Credential} (h : c.isEmpty = true) : ¬Escapes c := by
  have hfield (f : Credential.Field) : ¬EscapesDate (c.get f) := by
    intro hescapes
    have hfalse := Value.isTruthy_of_isEmpty (List.all_eq_true.mp h f f.mem_all)
    exact Bool.false_ne_true (hfalse.symm.trans (isTruthy_of_escapesDate hescapes))
  exact not_escapes (hfield .expirationDate) fun _ _ => hfield .issuanceDate

theorem not_escapes_of_proof {c : Credential} (h : c.proof.isNull = false) : ¬Escapes c := by
  intro hescapes
  cases hescapes with
  | expiration hproof | issuance hproof => exact Bool.false_ne_true (h.symm.trans hproof)

/-- A credential that is refused is objected to unless it escapes, and then it is not. -/
theorem objection_or_escapes {c : Credential} {e : Error} (h : Refused c e) :
    (e.IsObjection ∧ ¬Escapes c) ∨ ((∃ cause, e = .basic cause) ∧ Escapes c) := by
  have hclaim {name : String} (h : ∃ problem, e = .claim name (some problem)) : e.IsObjection := by
    obtain ⟨problem, rfl⟩ := h
    exact .inr rfl
  cases h with
  | empty hempty => exact .inl ⟨.inl rfl, not_escapes_of_isEmpty hempty⟩
  | proof hproof => exact .inl ⟨.inl rfl, not_escapes_of_proof hproof⟩
  | expiration hproof htruthy h =>
    refine (numericDate_eq_error h).imp ?_ fun h => ⟨h.1, .expiration hproof h.2⟩
    rintro ⟨hproblem, hnot⟩
    refine ⟨hclaim hproblem, not_escapes hnot fun hexp _ => ?_⟩
    obtain ⟨n, hn⟩ := hexp htruthy
    cases hn.symm.trans h
  | issuer hexp hiss =>
    exact .inl ⟨.inr rfl, not_escapes hexp.not_escapesDate fun _ h => absurd h hiss⟩
  | issuance hproof hexp hiss h =>
    refine (numericDate_eq_error h).imp ?_ fun h => ⟨h.1, .issuance hproof hexp hiss h.2⟩
    rintro ⟨hproblem, hnot⟩
    exact ⟨hclaim hproblem, not_escapes hexp.not_escapesDate fun _ _ => hnot⟩
  | id hexp hiat =>
    exact .inl ⟨.inr rfl, not_escapes hexp.not_escapesDate fun _ _ => hiat.not_escapesDate⟩

theorem not_escapes_of_ofCredential {nonce : String} {c : Credential} {claims : Claims}
    (h : ofCredential nonce c = .ok claims) : ¬Escapes c := by
  obtain ⟨-, -, exp, iss, iat, nbf, jti, subjectId, hexp, -, hiat, -⟩ := ofCredential_eq_ok_iff.mp h
  have hnot {name : String} (htime : isTime name = true) {v w : Value}
      (hv : v.isTruthy = true → normalize name v = .ok w) : ¬EscapesDate v := by
    have hfits : FitsTime name v := by
      intro htruthy
      obtain ⟨n, hn, -⟩ := exists_numericDate_of_normalize htime (hv htruthy)
      exact ⟨n, hn⟩
    exact hfits.not_escapesDate
  exact not_escapes (hnot rfl hexp) fun _ _ => hnot rfl hiat

/-- A value that is no date is reported as one that does not fit its claim, and a credential without
claim set is objected to, exactly if it does not escape. -/
theorem failures_claim_iff (name nonce : String) (v : Value) (o : Object) :
    ((∀ e, numericDate name v = .error e → ∃ problem, e = .claim name (some problem)) ↔
      ¬EscapesDate v) ∧
    ∀ c, Credential.ofValue (.object o) = .ok c →
      ((∀ e, ofCredential nonce c = .error e → e.IsObjection) ↔ ¬Escapes c) := by
  constructor
  · constructor
    · intro h hescapes
      obtain ⟨cause, hcause⟩ := numericDate_of_escapesDate hescapes name
      obtain ⟨problem, hproblem⟩ := h _ hcause
      cases hproblem
    · intro hnot e he
      rcases numericDate_eq_error he with ⟨hproblem, -⟩ | ⟨-, hescapes⟩
      · exact hproblem
      · exact absurd hescapes hnot
  · intro c hc
    obtain ⟨subject, hsubject⟩ := Credential.subject_of_ofValue hc
    constructor
    · intro h hescapes
      cases hclaims : ofCredential nonce c with
      | ok claims => exact not_escapes_of_ofCredential hclaims hescapes
      | error e =>
        rcases objection_or_escapes (refused_of_ofCredential hsubject hclaims) with
          ⟨-, hnot⟩ | ⟨⟨cause, rfl⟩, -⟩
        · exact hnot hescapes
        · exact Error.not_isObjection_basic cause (h _ hclaims)
    · intro hnot e he
      rcases objection_or_escapes (refused_of_ofCredential hsubject he) with
        ⟨hobjection, -⟩ | ⟨-, hescapes⟩
      · exact hobjection
      · exact absurd hescapes hnot

/-- The date of issue of this credential is no date, and reported as such. -/
theorem failures_claim_wordDate :
    ∃ c, Credential.ofValue (.object [("id", .text "c"), ("issuanceDate", .text "x")]) = .ok c ∧
      ofCredential "n" c = .error (.claim "iat" (some (.invalidDate "x"))) ∧ ¬Escapes c := by
  have hcredential :=
    failures_claim_iff "iat" "n" (.text "x") [("id", .text "c"), ("issuanceDate", .text "x")]
  refine ⟨_, rfl, rfl, (hcredential.2 _ rfl).mp fun e he => ?_⟩
  obtain rfl : Error.claim "iat" (some (.invalidDate "x")) = e := Except.error.inj he
  exact .inr rfl

/-- The digit in this text is no digit of a numeral. The text is no date, and not reported as such. -/
theorem not_claim_raisedDigit :
    ∃ c e, numericDate "exp" (.text "²") = .error e ∧
      Credential.ofValue (.object [("expirationDate", .text "²")]) = .ok c ∧
      ofCredential "n" c = .error e ∧ e.kind = .badValue ∧ ¬e.IsObjection :=
  ⟨_, _, rfl, rfl, rfl, rfl, Error.not_isObjection_basic _⟩

end Claims

end Attest
