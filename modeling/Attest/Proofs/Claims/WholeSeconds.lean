import Attest.Proofs.Claims.Fraction

/-! Dates with a fraction of a second. A claim gets whole seconds: those of the floating point number of
seconds since the epoch, without its fraction. The text of a date shows the second in which it lies. The
two are the same after the epoch, unless the date is too near before the next second; before the epoch
they differ by one. -/

namespace Attest

namespace Claims

/-- A value is read as a date. -/
inductive Denotes (name : String) : Value → DateTime → Prop
  | time (t : DateTime) : Denotes name (.time t) t
  | text {s : String} {t : DateTime} (h : readDate name s = .ok t) : Denotes name (.text s) t

theorem numericDate_of_denotes {name : String} {v : Value} {t : DateTime} (h : Denotes name v t) :
    numericDate name v = .ok (DateTime.secondsOf t.instant) := by
  cases h with
  | time => rw [numericDate, DateTime.toSeconds_eq_secondsOf]
  | text h => exact numericDate_of_readDate h

theorem format_of_formatTime {t : DateTime} {text : String} (h : formatTime (.time t) = .ok text) :
    t.format = .ok text := Except.mapError_eq_ok_iff.mp h

end Claims

namespace Binary64

/-- The whole part of a number is the greatest whole number that is not above it, unless the number is
negative and has a fraction. -/
theorem truncate_eq_floor_iff {x : Binary64} {n : Int} (h : x.truncate = .ok n) :
    n = x.signedUnits / unitsPerOne ↔ 0 ≤ x.signedUnits ∨ (unitsPerOne : Int) ∣ x.signedUnits := by
  cases x with
  | nan | infinity => cases h
  | finite negative e f =>
    obtain rfl := Except.ok.inj ((DateTime.truncate_finite negative e f).symm.trans h)
    unfold signedUnits
    generalize (finite negative e f).units = u
    have hpos : (0 : Int) < unitsPerOne := Int.natCast_pos.mpr unitsPerOne_pos
    cases negative with
    | false => exact iff_of_true (Int.natCast_ediv u unitsPerOne) (.inl (Int.natCast_nonneg u))
    | true =>
      show -((u / unitsPerOne : Nat) : Int) = -(u : Int) / unitsPerOne ↔
        0 ≤ -(u : Int) ∨ (unitsPerOne : Int) ∣ -(u : Int)
      rw [Int.natCast_ediv, Int.neg_ediv, Int.sign_eq_one_of_pos hpos, Int.dvd_neg]
      by_cases hdvd : (unitsPerOne : Int) ∣ u
      · rw [if_pos hdvd]
        exact iff_of_true (Int.sub_zero _).symm (.inr hdvd)
      · rw [if_neg hdvd]
        refine iff_of_false (by omega) ?_
        rintro (hle | h)
        · obtain rfl : u = 0 := by omega
          exact hdvd (Int.dvd_zero _)
        · exact hdvd h

end Binary64

namespace DateTime

theorem instant_of_ofBinary64 {x : Binary64} {n : Int} (h : x.truncate = .ok n) {u : DateTime}
    (hu : ofBinary64 x = .ok u) : u.instant = n * microsecondsPerSecond +
      if x.isNegative then -(microsecondsOfUnits (x.units % Binary64.unitsPerOne) : Int)
      else microsecondsOfUnits (x.units % Binary64.unitsPerOne) := by
  rw [ofBinary64_of_truncate h] at hu
  obtain ⟨hinstant, -⟩ := ofInstant?_eq_some_iff.mp (ofInstant?_of_ofSeconds hu)
  rw [hinstant]
  generalize (if x.isNegative then -(microsecondsOfUnits (x.units % Binary64.unitsPerOne) : Int)
    else microsecondsOfUnits (x.units % Binary64.unitsPerOne)) = m
  unfold microsecondsPerSecond
  omega

/-- Rounding to the microsecond does not change the second if the fraction does not become a whole
second after the epoch, or vanishes before it. -/
theorem eq_second_of_ofBinary64_iff {x : Binary64} {n : Int} (h : x.truncate = .ok n) {u : DateTime}
    (hu : ofBinary64 x = .ok u) : n = u.instant / microsecondsPerSecond ↔
      if x.isNegative then microsecondsOfUnits (x.units % Binary64.unitsPerOne) = 0
      else microsecondsOfUnits (x.units % Binary64.unitsPerOne) < microsecondsPerSecond := by
  have hlimit := microsecondsOfUnits_le (Nat.mod_lt x.units Binary64.unitsPerOne_pos)
  rw [instant_of_ofBinary64 h hu]
  unfold microsecondsPerSecond at *
  split <;> omega

/-- Where the offset has no fraction, the second that remains without a fraction is the one in which the
date lies. -/
theorem secondsOf_atWholeSecond {t : DateTime}
    (h : ∀ o, t.offset = some o → (microsecondsPerSecond : Int) ∣ o.microseconds) :
    secondsOf t.atWholeSecond.instant = t.instant / microsecondsPerSecond := by
  have hsum := t.instant_atWholeSecond
  have hless := t.time.microsecond.isLt
  have hoffset : (microsecondsPerSecond : Int) ∣ (t.offset.map Offset.microseconds).getD 0 := by
    cases hcase : t.offset with
    | none => exact Int.dvd_zero _
    | some o => exact h o hcase
  have hwhole : (microsecondsPerSecond : Int) ∣ t.atWholeSecond.instant := by
    unfold atWholeSecond instant localMicroseconds TimeOfDay.microseconds
    unfold microsecondsPerDay microsecondsPerSecond at *
    simp only
    omega
  rw [secondsOf_of_dvd hwhole]
  unfold microsecondsPerSecond at *
  omega

end DateTime

namespace Claims

/-- A date becomes the second in which it lies, and which its text shows, exactly if it keeps its second:
it is a whole second, or after the epoch and not too near before the next one. Until `2 ^ 34` seconds after
the epoch no date is too near. A floating point number becomes the greatest whole number below it unless
it is negative and has a fraction, and the second of the date that it is read as unless rounding to the
microsecond leads to another second. The text of a date with a fraction becomes the same seconds as the
text without it exactly if the date keeps its second. -/
theorem whole_seconds_iff (name : String) :
    (∀ (v : Value) (t : DateTime), Denotes name v t →
      ∃ n, numericDate name v = .ok n ∧
        (n = t.instant / microsecondsPerSecond ↔ DateTime.KeepsSecond t.instant) ∧
        (0 ≤ t.instant → t.instant < 2 ^ 34 * microsecondsPerSecond →
          n = t.instant / microsecondsPerSecond) ∧
        ∀ text, formatTime (.time t) = .ok text →
          ∃ u, DateTime.ofSeconds (t.instant / microsecondsPerSecond) 0 = .ok u ∧
            u.universalText = text) ∧
    (∀ x : Binary64, x.isFinite = true →
      ∃ n, numericDate name (.float x) = .ok n ∧
        (n = x.signedUnits / Binary64.unitsPerOne ↔
          0 ≤ x.signedUnits ∨ (Binary64.unitsPerOne : Int) ∣ x.signedUnits) ∧
        ∀ u, DateTime.ofBinary64 x = .ok u →
          (n = u.instant / microsecondsPerSecond ↔
            if x.isNegative then DateTime.microsecondsOfUnits (x.units % Binary64.unitsPerOne) = 0
            else DateTime.microsecondsOfUnits (x.units % Binary64.unitsPerOne) <
              microsecondsPerSecond)) ∧
    ∀ (f : FractionalText) (s s' : String) (t : DateTime), f.Splits →
      Text.strip s.toList = f.chars → Text.strip s'.toList = f.wholeChars →
      readDate name s = .ok t →
        readDate name s' = .ok t.atWholeSecond ∧
        ((∀ o, t.offset = some o → (microsecondsPerSecond : Int) ∣ o.microseconds) →
          (numericDate name (.text s) = numericDate name (.text s') ↔
            DateTime.KeepsSecond t.instant)) := by
  refine ⟨fun v t h => ?_, fun x h => ?_, fun f s s' t hsplits hs hs' ht => ?_⟩
  · refine ⟨_, numericDate_of_denotes h, DateTime.secondsOf_eq_div_iff, fun hlow hhigh => ?_,
      fun text htext => DateTime.format_eq_second (format_of_formatTime htext)⟩
    exact DateTime.secondsOf_eq_div_iff.mpr (DateTime.keepsSecond_of_lt hlow hhigh)
  · obtain ⟨n, hn⟩ : ∃ n, x.truncate = .ok n := by
      cases x with
      | nan | infinity => cases h
      | finite negative e f => exact ⟨_, DateTime.truncate_finite negative e f⟩
    refine ⟨n, ?_, Binary64.truncate_eq_floor_iff hn, fun u hu =>
      DateTime.eq_second_of_ofBinary64_iff hn hu⟩
    rw [numericDate, hn]
    rfl
  · have hwhole := FractionalText.readDate_wholeChars hs ht hsplits hs'
    refine ⟨hwhole, fun hoffset => ?_⟩
    rw [numericDate_of_readDate ht, numericDate_of_readDate hwhole, Except.ok.injEq,
      DateTime.secondsOf_atWholeSecond hoffset]
    exact DateTime.secondsOf_eq_div_iff

/-- Three quarters of a second, on a leap day. -/
def leapDayFraction : FractionalText where
  day := "2024-02-29".toList
  separator := 'T'
  colons := true
  fields := [23, 59, 59]
  point := '.'
  digits := "75".toList
  zone := "-01:00".toList
  hasFields := by decide
  fields_le := by decide
  fields_lt := by decide
  isPoint := .inl rfl
  hasDigits := by decide
  isDigits := List.all_eq_true.mp (by decide)
  isZone := .inr (.inr ⟨_, _, rfl, by decide⟩)

theorem whole_seconds_leapDay :
    leapDayFraction.Splits ∧ ∃ t, readDate "exp" "2024-02-29T23:59:59.75-01:00" = .ok t ∧
      readDate "exp" "2024-02-29T23:59:59-01:00" = .ok t.atWholeSecond ∧
      numericDate "exp" (.text "2024-02-29T23:59:59.75-01:00") =
        numericDate "exp" (.text "2024-02-29T23:59:59-01:00") ∧
      numericDate "exp" (.time t) = .ok (t.instant / microsecondsPerSecond) ∧
      numericDate "exp" (.float (.ofInt 8)) = .ok 8 := by
  have hsplits : leapDayFraction.Splits := ⟨by decide +kernel, by decide +kernel⟩
  have hread : readDate "exp" "2024-02-29T23:59:59.75-01:00" =
      .ok ⟨⟨2024, 2, 29, by decide⟩, ⟨23, 59, 59, 750000⟩, some ⟨-3600000000, by decide⟩⟩ :=
    Except.toOption_eq_some_iff.mp (by decide +kernel)
  obtain ⟨htime, hfloat, htext⟩ := whole_seconds_iff "exp"
  obtain ⟨hwhole, hsame⟩ := htext leapDayFraction "2024-02-29T23:59:59.75-01:00"
    "2024-02-29T23:59:59-01:00" _ hsplits (by decide +kernel) (by decide +kernel) hread
  obtain ⟨n, hn, -, hsecond, -⟩ := htime _ _ (.time _)
  obtain ⟨m, hm, hfloor, -⟩ := hfloat (.ofInt 8) (by decide +kernel)
  refine ⟨hsplits, _, hread, hwhole, (hsame ?_).mpr ?_, ?_, ?_⟩
  · rintro o ho
    obtain rfl := Option.some.inj ho
    decide
  · exact DateTime.keepsSecond_of_lt (by decide +kernel) (by decide +kernel)
  · rw [hn, hsecond (by decide +kernel) (by decide +kernel)]
  · rw [hm, hfloor.mpr (.inl (by decide +kernel))]
    exact congrArg Except.ok (by decide +kernel)

/-- Half a second that ends before the epoch: the fraction is dropped towards the epoch, and the date becomes
the second after the one that its text shows. -/
theorem second_lost_beforeEpoch :
    ∃ t, readDate "exp" "1969-12-31T23:59:58.5Z" = .ok t ∧
      t.instant / microsecondsPerSecond = -2 ∧
      formatTime (.time t) = .ok "1969-12-31T23:59:58Z" ∧
      numericDate "exp" (.text "1969-12-31T23:59:58Z") = .ok (-2) ∧
      numericDate "exp" (.text "1969-12-31T23:59:58.5Z") = .ok (-1) ∧
      numericDate "exp" (.time t) = .ok (-1) := by
  have hread : readDate "exp" "1969-12-31T23:59:58.5Z" =
      .ok ⟨⟨1969, 12, 31, by decide⟩, ⟨23, 59, 58, 500000⟩, some .zero⟩ :=
    Except.toOption_eq_some_iff.mp (by decide +kernel)
  exact ⟨_, hread, by decide +kernel, Except.toOption_eq_some_iff.mp (by decide +kernel),
    Except.toOption_eq_some_iff.mp (by decide +kernel),
    Except.toOption_eq_some_iff.mp (by decide +kernel),
    Except.toOption_eq_some_iff.mp (by decide +kernel)⟩

end Claims

end Attest
