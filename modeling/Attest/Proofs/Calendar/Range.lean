import Attest.Proofs.Calendar.Timestamp

/-! The range of the calendar. Seconds since the epoch, whole or not, are a point in time exactly if they
lie between the beginning of the year 1 and the end of the year 9999, and each of these points has a text
in universal time. Microseconds are rounded, but no number is so near to an end of the calendar that this
takes it across. -/

namespace Attest

/-- The seconds from the epoch to the beginning of the year 1. -/
def calendarStart : Int := -62135596800

/-- The seconds from the epoch to the end of the year 9999. -/
def calendarEnd : Int := 253402300800

/-- The number of seconds since the epoch lies in the calendar. -/
def Number.isInCalendar (n : Number) : Bool :=
  (Number.int calendarStart).le n && !(Number.int calendarEnd).le n

namespace TimeOfDay

theorem microseconds_ofMicroseconds {n : Nat} (h : n < microsecondsPerDay) :
    (ofMicroseconds n).microseconds = n := by
  unfold ofMicroseconds microseconds microsecondsPerSecond
  unfold microsecondsPerDay microsecondsPerSecond at h
  simp only [Fin.ofNat]
  omega

end TimeOfDay

namespace DateTime

/-- A point in time is that of a reading of universal time, and of no other such reading. -/
theorem ofInstant?_eq_some_iff {i : Int} {t : DateTime} :
    ofInstant? i = some t ↔ t.instant = i ∧ t.offset = some .zero := by
  constructor
  · intro h
    unfold ofInstant? at h
    rw [Option.bind_eq_bind, Option.bind_eq_some_iff] at h
    obtain ⟨date, hdate, h⟩ := h
    obtain rfl := Option.some.inj h
    have hnumber := Date.ofNumber?_eq_some_iff.mp hdate
    have hclock := TimeOfDay.microseconds_ofMicroseconds
      (show (i % microsecondsPerDay).toNat < microsecondsPerDay by
        unfold microsecondsPerDay microsecondsPerSecond
        omega)
    refine ⟨?_, rfl⟩
    show ((date.number : Int) - epochDay) * microsecondsPerDay +
      (TimeOfDay.ofMicroseconds (i % microsecondsPerDay).toNat).microseconds - 0 = i
    rw [hclock, ← hnumber]
    unfold microsecondsPerDay microsecondsPerSecond
    omega
  · rintro ⟨rfl, hoffset⟩
    exact ofInstant?_instant hoffset

theorem format_of_universal {t : DateTime} (h : t.offset = some .zero) :
    t.format = .ok t.universalText := by
  have huniversal : t.toUniversal = .ok t := by
    unfold toUniversal
    simp only [h, ofInstant?_instant h]
  rw [format, huniversal]
  rfl

theorem ofInstant?_of_ofSeconds {seconds : Int} {microseconds : Nat} {t : DateTime}
    (h : ofSeconds seconds microseconds = .ok t) :
    ofInstant? (seconds * microsecondsPerSecond + microseconds) = some t := by
  unfold ofSeconds at h
  simp only at h
  split at h
  · cases h
  split at h
  · cases h
  split at h
  · rename_i hfound
    rw [hfound, Except.ok.inj h]
  · cases h

/-- Within the years of the calendar a clock counts far enough. -/
theorem ofSeconds_eq_ok_iff {seconds : Int} {microseconds : Nat}
    (hless : microseconds < microsecondsPerSecond) {t : DateTime} :
    ofSeconds seconds microseconds = .ok t ↔
      ofInstant? (seconds * microsecondsPerSecond + microseconds) = some t := by
  constructor
  · exact ofInstant?_of_ofSeconds
  · intro h
    obtain ⟨hinstant, hoffset⟩ := ofInstant?_eq_some_iff.mp h
    have htime := t.time.microseconds_lt
    have hnumber := t.date.number_lt
    have hday : seconds / 86400 + epochDay = t.date.number := by
      have hlocal : ((t.date.number : Int) - epochDay) * microsecondsPerDay + t.time.microseconds =
          seconds * microsecondsPerSecond + microseconds := by
        rw [← hinstant, instant, hoffset]
        exact (Int.sub_zero _).symm
      unfold microsecondsPerDay microsecondsPerSecond at *
      omega
    have hclock : ¬(seconds < -2 ^ 63 ∨ 2 ^ 63 ≤ seconds) := by
      unfold epochDay at hday
      omega
    have hyears : ¬((t.date.year : Int) - 1900 < -2 ^ 31 ∨ 2 ^ 31 ≤ (t.date.year : Int) - 1900) := by
      obtain ⟨hlow, hhigh, -⟩ := t.date.ranges
      omega
    unfold ofSeconds
    rw [hday, Date.yearOfNumber_number, h]
    simp only [Bool.or_eq_true, decide_eq_true_eq, hclock, hyears, if_false]

theorem exists_ofInstant?_iff {i : Int} : (∃ t, ofInstant? i = some t) ↔
    0 ≤ i / microsecondsPerDay + epochDay ∧ i / microsecondsPerDay + epochDay < Date.count := by
  rw [← Date.exists_ofNumber?_iff]
  unfold ofInstant?
  simp only [Option.bind_eq_bind, Option.bind_eq_some_iff]
  constructor
  · rintro ⟨t, date, hdate, -⟩
    exact ⟨date, hdate⟩
  · rintro ⟨date, hdate⟩
    exact ⟨_, date, hdate, rfl⟩

/-- Whole seconds with some microseconds are a point in time exactly if the seconds lie in the
calendar. -/
theorem exists_ofSeconds_iff {seconds : Int} {microseconds : Nat}
    (hless : microseconds < microsecondsPerSecond) :
    (∃ t, ofSeconds seconds microseconds = .ok t) ↔
      calendarStart ≤ seconds ∧ seconds < calendarEnd := by
  simp only [ofSeconds_eq_ok_iff hless, exists_ofInstant?_iff]
  unfold calendarStart calendarEnd Date.count epochDay
  unfold microsecondsPerDay microsecondsPerSecond at *
  omega

/-- The microseconds that the fraction of a second is rounded to, given in units of a floating point
number. -/
def microsecondsOfUnits (fraction : Nat) : Nat :=
  roundHalfEven (Binary64.round false (fraction * microsecondsPerSecond) Binary64.unitsPerOne).units
    Binary64.unitsPerOne

theorem microsecondsOfUnits_le {fraction : Nat} (h : fraction < Binary64.unitsPerOne) :
    microsecondsOfUnits fraction ≤ 2 * microsecondsPerSecond := by
  refine Nat.le_trans (roundHalfEven_le _ _) (Nat.div_lt_of_lt_mul ?_)
  calc (Binary64.round false (fraction * microsecondsPerSecond) Binary64.unitsPerOne).units
    _ ≤ 2 * (fraction * microsecondsPerSecond) := Binary64.units_round_le _ _
    _ = fraction * (2 * microsecondsPerSecond) := Nat.mul_left_comm _ _ _
    _ < Binary64.unitsPerOne * (2 * microsecondsPerSecond) :=
      Nat.mul_lt_mul_of_pos_right h (by decide)

/-- A fraction of at most 17 binary places is multiplied exactly before it is rounded. -/
theorem microsecondsOfUnits_of_places {m j : Nat} (hj : 17 + j = 1074)
    (hunit : Binary64.unitsPerOne = 2 ^ 17 * 2 ^ j) (hm : m < 2 ^ 17) :
    microsecondsOfUnits (m * 2 ^ j) = roundHalfEven (m * microsecondsPerSecond) (2 ^ 17) := by
  have hsmall : m * microsecondsPerSecond < 2 ^ 53 := by
    unfold microsecondsPerSecond
    omega
  have hmul : m * 2 ^ j * microsecondsPerSecond = m * microsecondsPerSecond * 2 ^ j :=
    Nat.mul_right_comm _ _ _
  have hlog : (m * microsecondsPerSecond * 2 ^ j).log2 < 2098 := by
    have := Binary64.log2_mul_two_pow_lt hsmall j
    omega
  rw [microsecondsOfUnits, hmul,
    Binary64.units_round_of_fits (Binary64.fits_mul_two_pow hsmall j) hlog, hunit,
    Nat.mul_comm _ (2 ^ j), Nat.mul_comm _ (2 ^ j), roundHalfEven_mul_mul (Nat.two_pow_pos j)]

/-- The fraction of a number that is at least `2 ^ 35` has at most 17 binary places, so that it is not
rounded to a whole second, nor to none unless it is none. -/
theorem microsecondsOfUnits_of_large {x : Binary64}
    (h : 2 ^ 35 * Binary64.unitsPerOne ≤ x.units) :
    microsecondsOfUnits (x.units % Binary64.unitsPerOne) < microsecondsPerSecond ∧
    (0 < microsecondsOfUnits (x.units % Binary64.unitsPerOne) ↔
      0 < x.units % Binary64.unitsPerOne) := by
  obtain ⟨j, hj, hunit⟩ : ∃ j, 17 + j = 1074 ∧ Binary64.unitsPerOne = 2 ^ 17 * 2 ^ j := by
    obtain ⟨k, hk, hunit⟩ := Binary64.exists_unitsPerOne_eq
    have hplus : 17 + (k - 17) = k := Nat.add_sub_cancel' (hk ▸ by decide)
    exact ⟨k - 17, hplus.trans hk, by rw [hunit, ← Nat.pow_add, hplus]⟩
  have hplaces : 2 ^ j ∣ x.units := by
    have hsum : 35 + (17 + j) = j + 52 := by omega
    rw [hunit, ← Nat.pow_add, ← Nat.pow_add, hsum] at h
    exact Binary64.two_pow_dvd_units h
  obtain ⟨m, hm⟩ : ∃ m, x.units % Binary64.unitsPerOne = m * 2 ^ j := by
    obtain ⟨m, hm⟩ := (Nat.dvd_mod_iff (hunit ▸ Nat.dvd_mul_left _ _)).mpr hplaces
    exact ⟨m, hm.trans (Nat.mul_comm _ _)⟩
  have hless : m < 2 ^ 17 := by
    have hmod := Nat.mod_lt x.units Binary64.unitsPerOne_pos
    rw [hm, hunit] at hmod
    exact Nat.lt_of_mul_lt_mul_right hmod
  have hlow := div_le_roundHalfEven (m * microsecondsPerSecond) (2 ^ 17)
  have hhigh := roundHalfEven_le (m * microsecondsPerSecond) (2 ^ 17)
  rw [hm, microsecondsOfUnits_of_places hj hunit hless, Nat.mul_pos_iff_of_pos_right (Nat.two_pow_pos j)]
  cases m with
  | zero => exact ⟨by decide, by decide⟩
  | succ m =>
    unfold microsecondsPerSecond at *
    omega

theorem ofBinary64_of_truncate {x : Binary64} {whole : Int} (h : x.truncate = .ok whole) :
    ofBinary64 x =
      ofSeconds (whole + (if x.isNegative then
          -(microsecondsOfUnits (x.units % Binary64.unitsPerOne) : Int)
        else microsecondsOfUnits (x.units % Binary64.unitsPerOne)) / microsecondsPerSecond)
      ((if x.isNegative then
          -(microsecondsOfUnits (x.units % Binary64.unitsPerOne) : Int)
        else microsecondsOfUnits (x.units % Binary64.unitsPerOne)) % microsecondsPerSecond).toNat := by
  unfold ofBinary64
  rw [h]
  simp only [microsecondsOfUnits]

theorem truncate_finite (negative : Bool) (e : Fin 2047) (f : Fin (2 ^ 52)) :
    (Binary64.finite negative e f).truncate =
      .ok (if negative then -((Binary64.finite negative e f).units / Binary64.unitsPerOne : Nat)
        else ((Binary64.finite negative e f).units / Binary64.unitsPerOne : Nat)) := by
  simp only [Binary64.truncate]

/-- Of a number of `p + f` units the whole part is `w`, and `r` are the microseconds that are left. -/
theorem seconds_inRange_iff {one w p f r : Nat} (hp : p = w * one) (hf : f < one)
    (hr : r ≤ 2 * microsecondsPerSecond)
    (hlarge : 2 ^ 35 ≤ w → r < microsecondsPerSecond ∧ (0 < r ↔ 0 < f)) (negative : Bool) :
    (calendarStart ≤ (if negative then -(w : Int) else w) +
        (if negative then -(r : Int) else r) / microsecondsPerSecond ∧
      (if negative then -(w : Int) else w) +
        (if negative then -(r : Int) else r) / microsecondsPerSecond < calendarEnd) ↔
    calendarStart * one ≤ (if negative then -((p + f : Nat) : Int) else (p + f : Nat)) ∧
      (if negative then -((p + f : Nat) : Int) else (p + f : Nat)) < calendarEnd * one := by
  have hbelow (c : Nat) (h : w < c) : p + one ≤ c * one := by
    rw [hp, ← Nat.succ_mul]
    exact Nat.mul_le_mul_right one h
  have habove (c : Nat) (h : c ≤ w) : c * one ≤ p := hp ▸ Nat.mul_le_mul_right one h
  have hend := hbelow 253402300800
  have hafter := habove 253402300800
  have hstart := hbelow 62135596800
  have hbefore := habove 62135596801
  -- In the second that ends where the calendar begins it matters whether anything is left.
  have hequal : w = 62135596800 → p = 62135596800 * one := fun h => h ▸ hp
  unfold calendarStart calendarEnd
  unfold microsecondsPerSecond at *
  cases negative with
  | false =>
    simp only [Bool.false_eq_true, if_false]
    omega
  | true =>
    simp only [if_true]
    omega

theorem exists_ofBinary64_iff (negative : Bool) (e : Fin 2047) (f : Fin (2 ^ 52)) :
    (∃ t, ofBinary64 (.finite negative e f) = .ok t) ↔
      calendarStart * Binary64.unitsPerOne ≤ (Binary64.finite negative e f).signedUnits ∧
      (Binary64.finite negative e f).signedUnits < calendarEnd * Binary64.unitsPerOne := by
  have hfraction := Nat.mod_lt (Binary64.finite negative e f).units Binary64.unitsPerOne_pos
  have hunits := Nat.div_add_mod (Binary64.finite negative e f).units Binary64.unitsPerOne
  have hlarge (h : 2 ^ 35 ≤ (Binary64.finite negative e f).units / Binary64.unitsPerOne) :=
    microsecondsOfUnits_of_large ((Nat.le_div_iff_mul_le Binary64.unitsPerOne_pos).mp h)
  have hiff := seconds_inRange_iff (Nat.mul_comm _ _) hfraction (microsecondsOfUnits_le hfraction)
    hlarge negative
  rw [hunits] at hiff
  rw [ofBinary64_of_truncate (truncate_finite negative e f), exists_ofSeconds_iff ?_]
  · exact hiff
  · have hpos : (0 : Int) < microsecondsPerSecond := by decide
    exact (Int.toNat_lt (Int.emod_nonneg _ (Int.ne_of_gt hpos))).mpr (Int.emod_lt_of_pos _ hpos)

/-- Seconds since the epoch, whole or not, are a point in time exactly if they lie in the calendar. -/
theorem exists_ofNumber_iff {n : Number} :
    (∃ t, ofNumber n = .ok t) ↔ n.isInCalendar = true := by
  cases n with
  | int i =>
    have hunits : (0 : Int) < Binary64.unitsPerOne := Int.natCast_pos.mpr Binary64.unitsPerOne_pos
    simp only [ofNumber, exists_ofSeconds_iff microsecondsPerSecond_pos, Number.isInCalendar,
      Number.le, Number.signedUnits, Bool.and_eq_true, Bool.not_eq_true', decide_eq_true_eq,
      decide_eq_false_iff_not, Int.mul_le_mul_right hunits, Int.not_le]
  | float x =>
    cases x with
    | nan =>
      refine iff_of_false ?_ (by decide)
      rintro ⟨t, h⟩
      cases h
    | infinity negative =>
      refine iff_of_false ?_ (by cases negative <;> decide)
      rintro ⟨t, h⟩
      cases h
    | finite negative e f =>
      simp only [ofNumber, exists_ofBinary64_iff, Number.isInCalendar, Number.le,
        Number.signedUnits, Bool.and_eq_true, Bool.not_eq_true']
      exact and_congr decide_eq_true_iff.symm (Int.not_le.symm.trans decide_eq_false_iff_not.symm)

/-- A point in time that is given by a number is a reading of universal time. -/
theorem offset_of_ofNumber {n : Number} {t : DateTime} (h : ofNumber n = .ok t) :
    t.offset = some .zero := by
  cases n with
  | int i => exact (ofInstant?_eq_some_iff.mp (ofInstant?_of_ofSeconds h)).2
  | float x =>
    have h : ofBinary64 x = .ok t := h
    unfold ofBinary64 at h
    split at h
    · cases h
    · cases h
    · exact (ofInstant?_eq_some_iff.mp (ofInstant?_of_ofSeconds h)).2

end DateTime

end Attest
