import Attest.Proofs.Calendar.Seconds
import Attest.Proofs.Claims.Decoding
import Attest.Proofs.Claims.Failure

/-! Dates that are written in a claim and read from it again. A text gives the day and the time of a clock
with an offset, and the claim is read in universal time. On the first and on the last day of the calendar
universal time may have no such day: then the text is a date, and its claim is none. A credential with
such a date comes back without it. -/

namespace Attest

namespace DateTime

/-- A reading whose day in universal time is before the first day of the calendar or after the last. -/
inductive BeyondCalendar (t : DateTime) : Prop
  | before {o : Offset} (hoffset : t.offset = some o) (hday : t.date.number = 0)
    (h : (t.time.microseconds : Int) < o.microseconds)
  | after {o : Offset} (hoffset : t.offset = some o) (hday : t.date.number + 1 = Date.count)
    (h : (microsecondsPerDay : Int) ≤ t.time.microseconds - o.microseconds)

theorem not_beyondCalendar_of_universal {t : DateTime} (h : t.offset = some .zero) :
    ¬t.BeyondCalendar := by
  have htime := t.time.microseconds_lt
  have hzero : Offset.zero.microseconds = 0 := rfl
  intro hbeyond
  cases hbeyond with
  | before hoffset _ hless =>
    obtain rfl := Option.some.inj (h.symm.trans hoffset)
    omega
  | after hoffset _ hmore =>
    obtain rfl := Option.some.inj (h.symm.trans hoffset)
    omega

theorem number_lt_count (t : DateTime) : t.date.number < Date.count := by
  have hrange := Date.range_of_ofNumber? t.date.ofNumber?_number
  omega

/-- A reading has one of universal time for its point in time unless it is beyond the calendar. -/
theorem exists_ofInstant?_instant_iff {t : DateTime} :
    (∃ u, ofInstant? t.instant = some u) ↔ ¬t.BeyondCalendar := by
  have htime := t.time.microseconds_lt
  have hnumber := t.number_lt_count
  rw [exists_ofInstant?_iff]
  cases hoffset : t.offset with
  | none =>
    have hnot : ¬t.BeyondCalendar := by
      intro hbeyond
      cases hbeyond with
      | before h _ _ | after h _ _ => cases hoffset.symm.trans h
    refine iff_of_true ?_ hnot
    unfold instant localMicroseconds
    rw [hoffset, Option.map_none, Option.getD_none]
    unfold microsecondsPerDay microsecondsPerSecond at *
    omega
  | some o =>
    have hrange := o.inRange
    have hiff : t.BeyondCalendar ↔
        (t.date.number = 0 ∧ (t.time.microseconds : Int) < o.microseconds) ∨
        (t.date.number + 1 = Date.count ∧
          (microsecondsPerDay : Int) ≤ t.time.microseconds - o.microseconds) := by
      constructor
      · intro hbeyond
        cases hbeyond with
        | before h hday hless =>
          obtain rfl := Option.some.inj (hoffset.symm.trans h)
          exact .inl ⟨hday, hless⟩
        | after h hday hmore =>
          obtain rfl := Option.some.inj (hoffset.symm.trans h)
          exact .inr ⟨hday, hmore⟩
      · rintro (⟨hday, hless⟩ | ⟨hday, hmore⟩)
        · exact .before hoffset hday hless
        · exact .after hoffset hday hmore
    rw [hiff]
    unfold instant localMicroseconds
    rw [hoffset, Option.map_some, Option.getD_some]
    unfold microsecondsPerDay microsecondsPerSecond at *
    omega

theorem universalText_ne_empty (t : DateTime) : t.universalText ≠ "" := by
  intro h
  have hlist : t.secondText ++ ['Z'] = [] := by
    rw [← String.toList_ofList (l := t.secondText ++ ['Z'])]
    exact congrArg String.toList h
  exact List.cons_ne_nil _ _ (List.append_eq_nil_iff.mp hlist).2

theorem instant_of_ofSeconds {n : Int} {u : DateTime} (h : ofSeconds n 0 = .ok u) :
    u.instant = n * microsecondsPerSecond ∧ u.offset = some .zero := by
  have hfound := ofInstant?_eq_some_iff.mp (ofInstant?_of_ofSeconds h)
  rw [Int.natCast_zero, Int.add_zero] at hfound
  exact hfound

theorem exists_ofSeconds_instant_iff {t : DateTime} {n : Int}
    (h : n * microsecondsPerSecond = t.instant) :
    (∃ u, ofSeconds n 0 = .ok u) ↔ ¬t.BeyondCalendar := by
  simp only [ofSeconds_eq_ok_iff microsecondsPerSecond_pos, Int.natCast_zero, Int.add_zero, h]
  exact exists_ofInstant?_instant_iff

end DateTime

namespace Claims

theorem time?_of_int {claims : Claims} {name : String} {n : Int}
    (h : Object.get? claims name = some (.int n)) :
    time? claims name = (DateTime.ofSeconds n 0).toOption := by
  unfold time?
  rw [Object.getD, h]
  rfl

/-- The claim for a date of a credential. -/
inductive DateClaim : Credential.Field → String → Prop
  | issuance : DateClaim .issuanceDate "iat"
  | expiration : DateClaim .expirationDate "exp"

/-- What is made of the claim set of a credential has the fields that were left of it, but for those
that claims override. -/
theorem toCredential_of_ofCredential {nonce : String} {c d : Credential} {claims : Claims}
    (hclaims : ofCredential nonce c = .ok claims) (hd : toCredential claims = .ok d) :
    ∃ exp iss iat jti subjectId, Carries claims c exp iss iat jti subjectId ∧
      (c.expirationDate.isTruthy = true → normalize "exp" c.expirationDate = .ok exp) ∧
      (c.issuanceDate.isTruthy = true → normalize "iat" c.issuanceDate = .ok iat) ∧
      d = overrideCredential claims (Credential.ofMembers (c.remainder subjectId).toObject) := by
  have hgiven := (exists_toCredential_iff hclaims).mp ⟨d, hd⟩
  obtain ⟨-, -, exp, iss, iat, nbf, jti, subjectId, hexp, -, hiat, -, -, hid, rfl⟩ :=
    ofCredential_eq_ok_iff.mp hclaims
  have hcarries := carries_promoted nonce c exp iss iat nbf jti subjectId
  refine ⟨exp, iss, iat, jti, subjectId, hcarries, hexp, hiat, ?_⟩
  have hsubject : c.subject.isEmpty = true ∨ ∃ o, c.subject = .object o :=
    hgiven.symm.imp_right (isObject_of_subjectId hid)
  have hmade := toCredential_eq_ok_iff.mpr
    ⟨_, _, hcarries.credential, ofValue_remainder hsubject subjectId, rfl⟩
  exact Except.ok.inj (hd.symm.trans hmade)

/-- A date that was moved to its claim is the one that is read there, or is left out. -/
theorem get_date_of_toCredential {nonce : String} {c d : Credential} {claims : Claims}
    (hclaims : ofCredential nonce c = .ok claims) (hd : toCredential claims = .ok d)
    {f : Credential.Field} {name : String} (hf : DateClaim f name)
    (htruthy : (c.get f).isTruthy = true) :
    ∃ n, numericDate name (c.get f) = .ok n ∧
      d.get f = overrideTime (.text "") (DateTime.ofSeconds n 0).toOption := by
  obtain ⟨exp, iss, iat, jti, subjectId, hcarries, hexp, hiat, rfl⟩ :=
    toCredential_of_ofCredential hclaims hd
  have hleft (f : Credential.Field) :=
    Credential.get_ofMembers_toObject (c.remainder subjectId) f
  cases hf with
  | expiration =>
    obtain ⟨n, hn, rfl⟩ := exists_numericDate_of_normalize rfl (hexp htruthy)
    -- This field is emptied only where it makes a claim, and the other one always.
    have hmoved : c.expirationDate.moved.orDefault (.text "") = .text "" :=
      Value.orDefault_moved (fun hfalse => nomatch htruthy.symm.trans hfalse) _
    refine ⟨n, hn, ?_⟩
    rw [← time?_of_int (hcarries.expiration.trans (if_pos htruthy))]
    exact congrArg (overrideTime · _) ((hleft .expirationDate).trans hmoved)
  | issuance =>
    obtain ⟨n, hn, rfl⟩ := exists_numericDate_of_normalize rfl (hiat htruthy)
    refine ⟨n, hn, ?_⟩
    rw [← time?_of_int (hcarries.issuance.trans (if_pos htruthy))]
    exact congrArg (overrideTime · _) (hleft .issuanceDate)

theorem readDate_of_not_digits {name s : String} {cs : List Char} (hs : Text.strip s.toList = cs)
    (hdigits : cs.all Text.isDigit = false) : readDate name s =
      match Iso8601.parse? (Text.Utf8.encode (expandZulu cs)) with
      | some t => .ok t
      | none => .error (.claim name (some (.invalidDate s))) := by
  have hnot : ¬(!cs.isEmpty && cs.all Text.isDigit) = true := by
    rw [hdigits, Bool.and_false]
    exact Bool.false_ne_true
  unfold readDate
  rw [hs]
  exact if_neg hnot

theorem ne_empty_of_readDate {name s : String} {t : DateTime} (h : readDate name s = .ok t) :
    s ≠ "" := by
  rintro rfl
  cases h

theorem not_beyondCalendar_of_onlyDigits {name s : String} {t : DateTime} (hdigits : OnlyDigits s)
    (h : readDate name s = .ok t) : ¬t.BeyondCalendar := by
  rw [readDate_of_onlyDigits hdigits, Except.bind_eq_ok_iff] at h
  obtain ⟨n, -, ht⟩ := h
  have ht := Except.mapError_eq_ok_iff.mp ht
  exact DateTime.not_beyondCalendar_of_universal (DateTime.instant_of_ofSeconds ht).2

theorem numericDate_of_readDate {name s : String} {t : DateTime} (h : readDate name s = .ok t) :
    numericDate name (.text s) = .ok (DateTime.secondsOf t.instant) := by
  rw [numericDate, h, ← DateTime.toSeconds_eq_secondsOf]
  rfl

/-- A field for a date shows the seconds that its claim holds, and is empty if they are beyond the
calendar. -/
theorem overrideTime_ofSeconds {t : DateTime} {n : Int} (h : n * microsecondsPerSecond = t.instant) :
    (overrideTime (.text "") (DateTime.ofSeconds n 0).toOption = .text "" ↔ t.BeyondCalendar) ∧
      ∀ u, DateTime.ofInstant? t.instant = some u →
        overrideTime (.text "") (DateTime.ofSeconds n 0).toOption = .text u.universalText := by
  constructor
  · rw [← not_iff_not (b := t.BeyondCalendar), ← DateTime.exists_ofSeconds_instant_iff h]
    cases DateTime.ofSeconds n 0 with
    | error e => exact iff_of_false (fun hne => hne rfl) fun ⟨_, hu⟩ => nomatch hu
    | ok u => exact iff_of_true (fun hu => u.universalText_ne_empty (Value.text.inj hu)) ⟨u, rfl⟩
  · intro u hu
    have hseconds : DateTime.ofSeconds n 0 = .ok u := by
      rw [DateTime.ofSeconds_eq_ok_iff microsecondsPerSecond_pos, Int.natCast_zero, Int.add_zero, h]
      exact hu
    rw [hseconds]
    rfl

/-- The text of a date to the second becomes the seconds of its point in time. Where a claim holds these
seconds, and where a credential with this date is made of its claim set again, this very point in time is
found, unless the date is beyond the calendar. Then there is no date in the claim nor in the
credential. Digits alone are never beyond the calendar. -/
theorem date_found_iff {name s : String} {t : DateTime} (hread : readDate name s = .ok t)
    (hwhole : (microsecondsPerSecond : Int) ∣ t.instant) :
    ∃ n : Int, numericDate name (.text s) = .ok n ∧ n * microsecondsPerSecond = t.instant ∧
      (OnlyDigits s → ¬t.BeyondCalendar) ∧
      (∀ (claims : Claims) (name : String), Object.get? claims name = some (.int n) →
        ((time? claims name).isSome = true ↔ ¬t.BeyondCalendar) ∧
        ∀ u, time? claims name = some u → u.instant = t.instant) ∧
      ∀ (nonce : String) (c d : Credential) (claims : Claims),
        ofCredential nonce c = .ok claims → toCredential claims = .ok d →
        ∀ (f : Credential.Field) (claim : String), DateClaim f claim → c.get f = .text s →
          (d.get f = .text "" ↔ t.BeyondCalendar) ∧
          ∀ u, DateTime.ofInstant? t.instant = some u → d.get f = .text u.universalText := by
  have hinstant : DateTime.secondsOf t.instant * microsecondsPerSecond = t.instant := by
    rw [DateTime.secondsOf_of_dvd hwhole]
    exact Int.ediv_mul_cancel hwhole
  have hfound := DateTime.exists_ofSeconds_instant_iff hinstant
  refine ⟨_, numericDate_of_readDate hread, hinstant,
    fun hdigits => not_beyondCalendar_of_onlyDigits hdigits hread, ?_, ?_⟩
  · intro claims name hget
    rw [time?_of_int hget, ← hfound, Option.isSome_iff_exists]
    simp only [Except.toOption_eq_some_iff, true_and]
    intro u hu
    exact (DateTime.instant_of_ofSeconds hu).1.trans hinstant
  · intro nonce c d claims hclaims hd f claim hf hfield
    have htruthy : (c.get f).isTruthy = true := by
      rw [hfield, Value.isTruthy_text]
      exact decide_eq_true (ne_empty_of_readDate hread)
    obtain ⟨n, hn, hdate⟩ := get_date_of_toCredential hclaims hd hf htruthy
    rw [hfield, numericDate_of_readDate (readDate_congr hread claim)] at hn
    obtain rfl := Except.ok.inj hn
    rw [hdate]
    exact overrideTime_ofSeconds hinstant

/-- A credential that says nothing but when it expires. -/
def expiringAt (date : String) : Credential :=
  { Credential.empty with expirationDate := .text date }

/-- A credential that says nothing but from when to when it is valid. -/
def validFrom (issued expires : Value) : Credential :=
  { Credential.empty with issuanceDate := issued, expirationDate := expires }

theorem exists_claims_validFrom {issued expires : Value} {n m : Int}
    (hgiven : issued.isTruthy = true ∨ expires.isTruthy = true)
    (hn : issued.isTruthy = true → numericDate "nbf" issued = .ok n)
    (hm : expires.isTruthy = true → numericDate "exp" expires = .ok m) :
    ∃ claims, ofCredential "n" (validFrom issued expires) = .ok claims ∧
      Object.get? claims "nbf" = (if issued.isTruthy then some (.int n) else none) ∧
      Object.get? claims "exp" = if expires.isTruthy then some (.int m) else none := by
  have hnonempty : (validFrom issued expires).isEmpty = false := by
    have hfield {v : Value} (h : v.isTruthy = true) : ¬v.isEmpty = true := fun hempty =>
      Bool.false_ne_true ((Value.isTruthy_of_isEmpty hempty).symm.trans h)
    rw [Credential.isEmpty, List.all_eq_false]
    rcases hgiven with hgiven | hgiven
    · exact ⟨.issuanceDate, Credential.Field.mem_all _, hfield hgiven⟩
    · exact ⟨.expirationDate, Credential.Field.mem_all _, hfield hgiven⟩
  have htime {name : String} {v : Value} {i : Int} (hname : isTime name = true) {other : String}
      (h : numericDate other v = .ok i) : normalize name v = .ok (.int i) := by
    rw [normalize_time hname, numericDate_congr h name]
    rfl
  have hempty : ¬(Value.text "").isTruthy = true := by decide
  refine ⟨_, ofCredential_eq_ok_iff.mpr ⟨hnonempty, rfl, .int m, .null, .int n, .int n, .null, "",
    fun h => htime rfl (hm h), fun h => absurd h hempty, fun h => htime rfl (hn h),
    fun h => htime rfl (hn h), fun h => absurd h hempty, rfl, rfl⟩, ?_, ?_⟩
  · exact get?_promoted_nbf _ _ _ _ _ _ _ _
  · exact (carries_promoted _ _ _ _ _ _ _ _).expiration

theorem exists_claims_expiringAt {s : String} {n : Int}
    (h : numericDate "exp" (.text s) = .ok n) (hs : s ≠ "") :
    ∃ claims d, ofCredential "n" (expiringAt s) = .ok claims ∧ toCredential claims = .ok d := by
  have hempty : ¬(Value.text "").isTruthy = true := by decide
  have hgiven : (Value.text s).isTruthy = true := by
    rw [Value.isTruthy_text]
    exact decide_eq_true hs
  obtain ⟨claims, hclaims, -⟩ := exists_claims_validFrom (n := 0) (.inr hgiven)
    (fun h => absurd h hempty) fun _ => h
  obtain ⟨d, hd⟩ := (exists_toCredential_iff hclaims).mpr (.inr rfl)
  exact ⟨claims, d, hclaims, hd⟩

/-- A date of a clock that is ahead of universal time comes back, and is then of the day before. -/
theorem date_found_leapDay :
    ∃ t claims d, readDate "exp" "2024-03-01T01:30:00+05:30" = .ok t ∧
      (microsecondsPerSecond : Int) ∣ t.instant ∧
      ofCredential "n" (expiringAt "2024-03-01T01:30:00+05:30") = .ok claims ∧
      toCredential claims = .ok d ∧ d.expirationDate = .text "2024-02-29T20:00:00Z" := by
  have hread : readDate "exp" "2024-03-01T01:30:00+05:30" =
      .ok ⟨⟨2024, 3, 1, by decide⟩, ⟨1, 30, 0, 0⟩, some ⟨19800000000, by decide⟩⟩ :=
    Except.toOption_eq_some_iff.mp (by decide +kernel)
  obtain ⟨n, hn, -, -, -, hcredential⟩ := date_found_iff hread (by decide +kernel)
  obtain ⟨claims, d, hclaims, hd⟩ := exists_claims_expiringAt hn (by decide)
  obtain ⟨-, hdate⟩ := hcredential "n" _ d claims hclaims hd .expirationDate "exp" .expiration rfl
  have htext : DateTime.universalText ⟨⟨2024, 2, 29, by decide⟩, ⟨20, 0, 0, 0⟩, some .zero⟩ =
      "2024-02-29T20:00:00Z" := by decide +kernel
  exact ⟨_, claims, d, hread, by decide +kernel, hclaims, hd,
    (hdate _ (by decide +kernel)).trans (congrArg Value.text htext)⟩

/-- In universal time the calendar is over when this clock shows the end of its last day. -/
theorem date_lost_lastDay :
    ∃ n claims d, numericDate "exp" (.text "9999-12-31T23:59:59-01:00") = .ok n ∧
      time? [("exp", .int n)] "exp" = none ∧
      ofCredential "n" (expiringAt "9999-12-31T23:59:59-01:00") = .ok claims ∧
      toCredential claims = .ok d ∧ d.expirationDate = .text "" := by
  have hn : numericDate "exp" (.text "9999-12-31T23:59:59-01:00") = .ok 253402304399 :=
    Except.toOption_eq_some_iff.mp (by decide +kernel)
  have hnone : (DateTime.ofSeconds 253402304399 0).toOption = none := by decide +kernel
  obtain ⟨claims, d, hclaims, hd⟩ := exists_claims_expiringAt hn (by decide)
  obtain ⟨m, hm, hdate⟩ := get_date_of_toCredential hclaims hd .expiration (by decide)
  obtain rfl := Except.ok.inj (hn.symm.trans hm)
  rw [hnone] at hdate
  exact ⟨_, claims, d, hn, (time?_of_int rfl).trans hnone, hclaims, hd, hdate⟩

end Claims

end Attest
