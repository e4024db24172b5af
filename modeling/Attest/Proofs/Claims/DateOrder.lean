import Attest.Proofs.Calendar.Order
import Attest.Proofs.Claims.WholeSeconds

/-! The order of dates. A date that is not after another one becomes no greater number of seconds, whichever
forms the two have, but for one case: a floating point number before the epoch overtakes a text of which
digits are left out when it is read. -/

namespace Attest

namespace Claims

/-- A value is at a point in time, given by the seconds from the epoch to it. A text is where it is read
to be, to the microsecond, and one with a fraction also where all its digits put it. -/
inductive IsAt : Value → ℚ → Prop
  | int (i : Int) : IsAt (.int i) i
  | float {x : Binary64} (h : x.isFinite = true) : IsAt (.float x) (Number.float x).seconds
  | time (t : DateTime) : IsAt (.time t) t.seconds
  | read {name s : String} {t : DateTime} (h : readDate name s = .ok t) : IsAt (.text s) t.seconds
  | digits {name s : String} {t : DateTime} {f : FractionalText} (hs : Text.strip s.toList = f.chars)
    (hsplits : f.Splits) (h : readDate name s = .ok t) :
    IsAt (.text s) (t.atWholeSecond.seconds + natOfDigits f.digits / 10 ^ f.digits.length)

/-- A text is read as a whole second before the epoch, and a floating point number is after that second. -/
inductive Overtakes : Value → Value → Prop
  | intro {x : Binary64} {name s : String} {t : DateTime} (hread : readDate name s = .ok t)
    (hbefore : t.instant < 0) (hwhole : (microsecondsPerSecond : Int) ∣ t.instant)
    (hafter : t.seconds < (Number.float x).seconds) : Overtakes (.float x) (.text s)

theorem overtakes_iff {x : Binary64} {name s : String} {t : DateTime} (h : readDate name s = .ok t) :
    Overtakes (.float x) (.text s) ↔ t.instant < 0 ∧ (microsecondsPerSecond : Int) ∣ t.instant ∧
      t.seconds < (Number.float x).seconds := by
  constructor
  · rintro ⟨hread, hbefore, hwhole, hafter⟩
    obtain rfl := Except.ok.inj ((readDate_congr hread name).symm.trans h)
    exact ⟨hbefore, hwhole, hafter⟩
  · rintro ⟨hbefore, hwhole, hafter⟩
    exact .intro h hbefore hwhole hafter

theorem not_overtakes_of_isText {v w : Value} (h : w.isText = false) : ¬Overtakes v w := by
  rintro ⟨⟩
  cases h

/-- How a value at a point in time becomes seconds: as a number that loses its fraction, or as a reading to
the microsecond, which only of a text leaves something out. -/
inductive Route : Value → ℚ → Int → Prop
  | number {x : Number} {n : Int} (h : x.truncate = .ok n) : Route (.ofNumber x) x.seconds n
  | time (t : DateTime) : Route (.time t) t.seconds (DateTime.secondsOf t.instant)
  | text {name s : String} {t : DateTime} {q : ℚ} (hread : readDate name s = .ok t) (hshows : t.Shows q) :
    Route (.text s) q (DateTime.secondsOf t.instant)

theorem FractionalText.shows {f : FractionalText} {name s : String} {t : DateTime}
    (hs : Text.strip s.toList = f.chars) (hsplits : f.Splits) (h : readDate name s = .ok t) :
    t.Shows (t.atWholeSecond.seconds + natOfDigits f.digits / 10 ^ f.digits.length) := by
  have hmicrosecond := microsecond_of_readDate hs h hsplits
  obtain ⟨hlow, hhigh⟩ := Iso8601.microsecondsOf_bounds f.isDigits
  have hpos : (0 : ℚ) < 10 ^ f.digits.length := pow_pos (by norm_num) _
  have hseconds : t.seconds =
      t.atWholeSecond.seconds + Iso8601.microsecondsOf f.digits / microsecondsPerSecond := by
    rw [DateTime.seconds, ← t.instant_atWholeSecond, hmicrosecond, DateTime.seconds, ← add_div]
    exact_mod_cast rfl
  constructor
  · rw [hseconds]
    apply add_le_add_right
    rw [div_le_div_iff₀ DateTime.microsecondsPerSecond_cast_pos hpos]
    exact_mod_cast hlow
  · rw [hseconds, add_assoc, ← add_div]
    apply add_lt_add_right
    rw [div_lt_div_iff₀ hpos DateTime.microsecondsPerSecond_cast_pos]
    exact_mod_cast hhigh

section Route

variable {v w : Value} {q r : ℚ} {n m : Int}

theorem IsAt.exists_route (h : IsAt v q) (name : String) :
    ∃ n, numericDate name v = .ok n ∧ Route v q n := by
  cases h with
  | int i =>
    rw [← Number.seconds_int]
    exact ⟨i, rfl, .number (x := .int i) rfl⟩
  | @float x hfinite =>
    obtain ⟨n, hn⟩ : ∃ n, x.truncate = .ok n := by
      cases x with
      | nan | infinity => cases hfinite
      | finite negative e f => exact ⟨_, DateTime.truncate_finite negative e f⟩
    refine ⟨n, ?_, .number (x := .float x) hn⟩
    rw [numericDate, hn]
    rfl
  | time t => exact ⟨_, numericDate_of_denotes (.time t), .time t⟩
  | read hread =>
    exact ⟨_, numericDate_of_readDate (readDate_congr hread name), .text hread (DateTime.shows_seconds _)⟩
  | digits hs hsplits hread =>
    exact ⟨_, numericDate_of_readDate (readDate_congr hread name),
      .text hread (FractionalText.shows hs hsplits hread)⟩

theorem IsAt.route (h : IsAt v q) {name : String} (hn : numericDate name v = .ok n) : Route v q n := by
  obtain ⟨i, hi, hroute⟩ := h.exists_route name
  obtain rfl := Except.ok.inj (hi.symm.trans hn)
  exact hroute

theorem Route.abs_sub_lt (h : Route v q n) : |(n : ℚ) - q| < 1 := by
  cases h with
  | number h => exact Number.abs_truncate_sub_lt h
  | time t => exact t.shows_seconds.abs_secondsOf_sub_lt
  | text _ hshows => exact hshows.abs_secondsOf_sub_lt

/-- A reading never overtakes. -/
theorem Route.le_of_reading {t : DateTime} (hshows : t.Shows q) (hw : Route w r m) (h : q ≤ r) :
    DateTime.secondsOf t.instant ≤ m := by
  cases hw with
  | number hm => exact hshows.secondsOf_le_truncate hm h
  | time u => exact hshows.secondsOf_le_secondsOf u.shows_seconds h
  | text _ hshows' => exact hshows.secondsOf_le_secondsOf hshows' h

theorem Route.le_iff (hv : Route v q n) (hw : Route w r m) (h : q ≤ r) : n ≤ m ↔ ¬Overtakes v w := by
  cases hv with
  | time t => exact iff_of_true (hw.le_of_reading t.shows_seconds h) nofun
  | text _ hshows => exact iff_of_true (hw.le_of_reading hshows h) nofun
  | @number x n hn =>
    cases hw with
    | @number y m hm =>
      have hnumber : (Value.ofNumber y).isText = false := by cases y <;> rfl
      exact iff_of_true (Number.truncate_le_truncate hn hm h) (not_overtakes_of_isText hnumber)
    | time u =>
      refine iff_of_true ?_ (not_overtakes_of_isText rfl)
      exact (u.shows_seconds.truncate_le_secondsOf_iff hn h).mpr fun hslip => not_lt_of_ge h hslip.2.2
    | text hread hshows =>
      rw [hshows.truncate_le_secondsOf_iff hn h]
      cases x with
      | float x => exact not_congr (overtakes_iff hread).symm
      | int i =>
        refine iff_of_true (fun hslip => ?_) nofun
        exact not_lt_of_ge (hshows.int_le h) hslip.2.2

end Route

theorem exists_isAt {name : String} {v : Value} {n : Int} (h : numericDate name v = .ok n) :
    ∃ q, IsAt v q := by
  cases v with
  | int i => exact ⟨i, .int i⟩
  | float x =>
    cases x with
    | nan | infinity => cases h
    | finite negative e f => exact ⟨_, .float rfl⟩
  | text s =>
    obtain ⟨t, hread, -⟩ := Except.map_eq_ok_iff.mp h
    exact ⟨t.seconds, .read hread⟩
  | time t => exact ⟨t.seconds, .time t⟩
  | null | bool | list | object | credential => cases h

/-- The claims for the dates of a credential are in order exactly if the first date does not overtake the
second one. -/
theorem dates_of_ofCredential {nonce : String} {c : Credential} {claims : Claims}
    (h : ofCredential nonce c = .ok claims) {q r : ℚ} (hissued : IsAt c.issuanceDate q)
    (hexpires : IsAt c.expirationDate r) (hle : q ≤ r) {nbf exp : Value}
    (hnbf : Object.get? claims "nbf" = some nbf) (hexp : Object.get? claims "exp" = some exp) :
    ∃ n m, nbf = .int n ∧ exp = .int m ∧ (n ≤ m ↔ ¬Overtakes c.issuanceDate c.expirationDate) := by
  obtain ⟨-, -, w, iss, iat, v, jti, subjectId, hw, -, -, hv, -, -, rfl⟩ := ofCredential_eq_ok_iff.mp h
  rw [get?_promoted_nbf] at hnbf
  rw [(carries_promoted nonce c w iss iat v jti subjectId).expiration] at hexp
  split at hnbf
  · rename_i hissuance
    split at hexp
    · rename_i hexpiration
      obtain rfl := Option.some.inj hnbf
      obtain rfl := Option.some.inj hexp
      obtain ⟨n, hn, rfl⟩ := exists_numericDate_of_normalize rfl (hv hissuance)
      obtain ⟨m, hm, rfl⟩ := exists_numericDate_of_normalize rfl (hw hexpiration)
      exact ⟨n, m, rfl, rfl, (hissued.route hn).le_iff (hexpires.route hm) hle⟩
    · cases hexp
  · cases hnbf

/-- Every date is at some point in time and becomes whole seconds less than one away from it. Of two dates
the one that is not after the other becomes no more seconds exactly if it does not overtake it, also in the
claim set of a credential. -/
theorem date_order_iff :
    (∀ (name : String) (v : Value) (n : Int), numericDate name v = .ok n → ∃ q, IsAt v q) ∧
    (∀ (name : String) (v : Value) (q : ℚ), IsAt v q →
      ∃ n, numericDate name v = .ok n ∧ |(n : ℚ) - q| < 1) ∧
    (∀ (name other : String) (v w : Value) (q r : ℚ) (n m : Int), IsAt v q → IsAt w r → q ≤ r →
      numericDate name v = .ok n → numericDate other w = .ok m → (n ≤ m ↔ ¬Overtakes v w)) ∧
    ∀ (nonce : String) (c : Credential) (claims : Claims) (q r : ℚ) (nbf exp : Value),
      ofCredential nonce c = .ok claims → IsAt c.issuanceDate q → IsAt c.expirationDate r → q ≤ r →
      Object.get? claims "nbf" = some nbf → Object.get? claims "exp" = some exp →
        ∃ n m, nbf = .int n ∧ exp = .int m ∧ (n ≤ m ↔ ¬Overtakes c.issuanceDate c.expirationDate) := by
  refine ⟨fun _ _ _ => exists_isAt, fun name v q h => ?_, fun _ _ _ _ _ _ _ _ hv hw hle hn hm => ?_,
    fun _ _ _ _ _ _ _ h hissued hexpires hle => dates_of_ofCredential h hissued hexpires hle⟩
  · obtain ⟨n, hn, hroute⟩ := h.exists_route name
    exact ⟨n, hn, hroute.abs_sub_lt⟩
  · exact (hv.route hn).le_iff (hw.route hm) hle

theorem exists_isAt_of_signedUnits {x : Binary64} (hfinite : x.isFinite = true) {n : Int} {d : Nat}
    (hd : 0 < d) (h : x.signedUnits * d ≤ n * Binary64.unitsPerOne) :
    ∃ q, IsAt (.float x) q ∧ q ≤ n / d := by
  refine ⟨_, .float hfinite, ?_⟩
  rw [Number.seconds, div_le_div_iff₀ Number.unitsPerOne_cast_pos (Nat.cast_pos.mpr hd)]
  exact_mod_cast h

theorem isAt_digits {name s : String} {t : DateTime} {f : FractionalText}
    (hs : Text.strip s.toList = f.chars) (hsplits : f.Splits) (h : readDate name s = .ok t) {n : Int}
    (hinstant : t.atWholeSecond.instant = n * microsecondsPerSecond) :
    IsAt (.text s) (n + natOfDigits f.digits / 10 ^ f.digits.length) := by
  rw [← DateTime.seconds_of_instant hinstant]
  exact .digits hs hsplits h

/-- From half a second before the end of a leap day to a quarter of a second before it. -/
theorem date_order_leapDay :
    ∃ q r claims, IsAt (.float (.ofDecimal false 17092547995 (-1))) q ∧
      IsAt (.text "2024-02-29T23:59:59.75-01:00") r ∧ q ≤ r ∧
      numericDate "nbf" (.float (.ofDecimal false 17092547995 (-1))) = .ok 1709254799 ∧
      |((1709254799 : Int) : ℚ) - q| < 1 ∧
      numericDate "exp" (.text "2024-02-29T23:59:59.75-01:00") = .ok 1709254799 ∧
      ¬Overtakes (.float (.ofDecimal false 17092547995 (-1))) (.text "2024-02-29T23:59:59.75-01:00") ∧
      ofCredential "n" (validFrom (.float (.ofDecimal false 17092547995 (-1)))
        (.text "2024-02-29T23:59:59.75-01:00")) = .ok claims ∧
      ∃ n m, Object.get? claims "nbf" = some (.int n) ∧ Object.get? claims "exp" = some (.int m) ∧
        n ≤ m := by
  have hn : numericDate "nbf" (.float (.ofDecimal false 17092547995 (-1))) = .ok 1709254799 :=
    Except.toOption_eq_some_iff.mp (by decide +kernel)
  have hm : numericDate "exp" (.text "2024-02-29T23:59:59.75-01:00") = .ok 1709254799 :=
    Except.toOption_eq_some_iff.mp (by decide +kernel)
  have hread : readDate "exp" "2024-02-29T23:59:59.75-01:00" =
      .ok ⟨⟨2024, 2, 29, by decide⟩, ⟨23, 59, 59, 750000⟩, some ⟨-3600000000, by decide⟩⟩ :=
    Except.toOption_eq_some_iff.mp (by decide +kernel)
  obtain ⟨q, hissued, hq⟩ : ∃ q, IsAt (.float (.ofDecimal false 17092547995 (-1))) q ∧
      q ≤ (17092547995 : Int) / (10 : Nat) :=
    exists_isAt_of_signedUnits (by decide +kernel) (by decide) (by decide +kernel)
  have hexpires : IsAt (.text "2024-02-29T23:59:59.75-01:00") ((1709254799 : Int) + (75 : Nat) / 10 ^ 2) :=
    isAt_digits (f := leapDayFraction) (by decide +kernel) ⟨by decide +kernel, by decide +kernel⟩ hread
      (by decide +kernel)
  have hle : q ≤ (1709254799 : Int) + (75 : Nat) / 10 ^ 2 := le_trans hq (by norm_num)
  have hgiven : (Value.float (.ofDecimal false 17092547995 (-1))).isTruthy = true := by decide +kernel
  obtain ⟨claims, hclaims, hnbf, hexp⟩ := exists_claims_validFrom (.inl hgiven) (fun _ => hn) fun _ => hm
  replace hnbf := hnbf.trans (if_pos hgiven)
  replace hexp := hexp.trans (if_pos (by decide))
  obtain ⟨-, hnear, horder, hcredential⟩ := date_order_iff
  obtain ⟨i, hi, hless⟩ := hnear "nbf" _ q hissued
  obtain rfl := Except.ok.inj (hi.symm.trans hn)
  obtain ⟨n, m, hn', hm', hsorted⟩ := hcredential "n" _ claims q _ _ _ hclaims hissued hexpires hle hnbf hexp
  have hnot := (horder "nbf" "exp" _ _ q _ _ _ hissued hexpires hle hn hm).mp (Int.le_refl _)
  exact ⟨q, _, claims, hissued, hexpires, hle, hn, hless, hm, hnot, hclaims, n, m,
    hnbf.trans (congrArg some hn'), hexp.trans (congrArg some hm'), hsorted.mpr hnot⟩

/-- Less than a microsecond after a second before the epoch. -/
def beforeEpochFraction : FractionalText :=
  { leapDayFraction with
    day := "1969-12-31".toList
    fields := [23, 59, 58]
    digits := "0000005".toList
    zone := ['Z']
    hasFields := by decide
    fields_le := by decide
    fields_lt := by decide
    hasDigits := by decide
    isDigits := List.all_eq_true.mp (by decide)
    isZone := .inr (.inr ⟨_, _, rfl, by decide⟩) }

/-- Before the epoch a number is taken for the second after it, and a text of which only the last digit is
after a second for that second, so that a credential expires before it is valid. An offset of less than
a second is left out too: half a second before the epoch on a clock that is ahead by nine tenths becomes the
epoch, although it is more than a second away. -/
theorem order_lost_beforeEpoch :
    ∃ q r claims, IsAt (.float (.ofDecimal true 19999997 (-7))) q ∧
      IsAt (.text "1969-12-31T23:59:58.0000005Z") r ∧ q ≤ r ∧
      numericDate "nbf" (.float (.ofDecimal true 19999997 (-7))) = .ok (-1) ∧
      numericDate "exp" (.text "1969-12-31T23:59:58.0000005Z") = .ok (-2) ∧
      ofCredential "n" (validFrom (.float (.ofDecimal true 19999997 (-7)))
        (.text "1969-12-31T23:59:58.0000005Z")) = .ok claims ∧
      Object.get? claims "nbf" = some (.int (-1)) ∧ Object.get? claims "exp" = some (.int (-2)) ∧
      readDate "exp" "1969-12-31T23:59:59.5+00:00:00.9" =
        .ok ⟨⟨1969, 12, 31, by decide⟩, ⟨23, 59, 59, 500000⟩, some .zero⟩ ∧
      numericDate "exp" (.text "1969-12-31T23:59:59.5+00:00:00.9") = .ok 0 := by
  have hn : numericDate "nbf" (.float (.ofDecimal true 19999997 (-7))) = .ok (-1) :=
    Except.toOption_eq_some_iff.mp (by decide +kernel)
  have hm : numericDate "exp" (.text "1969-12-31T23:59:58.0000005Z") = .ok (-2) :=
    Except.toOption_eq_some_iff.mp (by decide +kernel)
  have hread : readDate "exp" "1969-12-31T23:59:58.0000005Z" =
      .ok ⟨⟨1969, 12, 31, by decide⟩, ⟨23, 59, 58, 0⟩, some .zero⟩ :=
    Except.toOption_eq_some_iff.mp (by decide +kernel)
  obtain ⟨q, hissued, hq⟩ : ∃ q, IsAt (.float (.ofDecimal true 19999997 (-7))) q ∧
      q ≤ (-19999996 : Int) / (10000000 : Nat) :=
    exists_isAt_of_signedUnits (by decide +kernel) (by decide) (by decide +kernel)
  have hexpires : IsAt (.text "1969-12-31T23:59:58.0000005Z") ((-2 : Int) + (5 : Nat) / 10 ^ 7) :=
    isAt_digits (f := beforeEpochFraction) (by decide +kernel) ⟨by decide +kernel, by decide +kernel⟩ hread
      (by decide +kernel)
  have hle : q ≤ (-2 : Int) + (5 : Nat) / 10 ^ 7 := le_trans hq (by norm_num)
  have hgiven : (Value.float (.ofDecimal true 19999997 (-7))).isTruthy = true := by decide +kernel
  obtain ⟨claims, hclaims, hnbf, hexp⟩ := exists_claims_validFrom (.inl hgiven) (fun _ => hn) fun _ => hm
  replace hnbf := hnbf.trans (if_pos hgiven)
  replace hexp := hexp.trans (if_pos (by decide))
  exact ⟨q, _, claims, hissued, hexpires, hle, hn, hm, hclaims, hnbf, hexp,
    Except.toOption_eq_some_iff.mp (by decide +kernel), Except.toOption_eq_some_iff.mp (by decide +kernel)⟩

end Claims

end Attest
