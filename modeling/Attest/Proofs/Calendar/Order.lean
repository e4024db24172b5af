import Attest.Proofs.Calendar.Seconds
import Attest.Proofs.Number.WholeOrder
import Mathlib.Algebra.Order.Field.Basic
import Mathlib.Algebra.Order.Ring.Rat
import Mathlib.Tactic.Linarith

/-! The order of points in time and of the seconds that they are taken for. Both numbers and readings of a
clock lose their fraction towards the epoch, and they are compared across the two: only where a reading
leaves out a part of a microsecond before the epoch, a number can be between. -/

namespace Attest

namespace DateTime

open Binary64 (unitsPerOne unitsPerOne_pos IsSpaced)

theorem secondsOf_natCast (n : Nat) :
    secondsOf n = (Binary64.wholeOf n microsecondsPerSecond : Int) :=
  if_neg (Int.not_lt.mpr (Int.natCast_nonneg n))

theorem secondsOf_neg (i : Int) : secondsOf (-i) = -secondsOf i := by
  have hzero : Binary64.wholeOf 0 microsecondsPerSecond = 0 :=
    Binary64.wholeOf_of_dvd microsecondsPerSecond_pos (Nat.dvd_zero _)
  unfold secondsOf
  rw [Int.natAbs_neg]
  rcases Int.lt_trichotomy i 0 with hless | rfl | hmore
  · rw [if_neg (by omega), if_pos hless, Int.neg_neg]
  · rw [Int.natAbs_zero, hzero]
    rfl
  · rw [if_pos (by omega), if_neg (by omega)]

theorem secondsOf_nonneg {i : Int} (h : 0 ≤ i) : 0 ≤ secondsOf i := by
  obtain ⟨n, rfl⟩ := Int.eq_ofNat_of_zero_le h
  rw [secondsOf_natCast]
  exact Int.natCast_nonneg _

theorem secondsOf_mono {i j : Int} (h : i ≤ j) : secondsOf i ≤ secondsOf j := by
  have hafter {i j : Int} (hi : 0 ≤ i) (h : i ≤ j) : secondsOf i ≤ secondsOf j := by
    obtain ⟨n, rfl⟩ := Int.eq_ofNat_of_zero_le hi
    obtain ⟨m, rfl⟩ := Int.eq_ofNat_of_zero_le (Int.le_trans hi h)
    rw [secondsOf_natCast, secondsOf_natCast]
    exact Int.ofNat_le.mpr (Binary64.wholeOf_mono (Int.ofNat_le.mp h))
  rcases Int.le_total 0 i with hi | hi
  · exact hafter hi h
  rcases Int.le_total 0 j with hj | hj
  · have hbefore := secondsOf_nonneg (Int.neg_nonneg_of_nonpos hi)
    rw [secondsOf_neg] at hbefore
    have := secondsOf_nonneg hj
    omega
  · have hmirrored := hafter (Int.neg_nonneg_of_nonpos hj) (Int.neg_le_neg h)
    rw [secondsOf_neg, secondsOf_neg] at hmirrored
    omega

theorem secondsOf_mul_lt (i : Int) :
    secondsOf i * microsecondsPerSecond < i + microsecondsPerSecond ∧
      i < secondsOf i * microsecondsPerSecond + microsecondsPerSecond := by
  have hafter (n : Nat) : secondsOf n * microsecondsPerSecond < n + microsecondsPerSecond ∧
      n < secondsOf n * microsecondsPerSecond + microsecondsPerSecond := by
    have hless := Binary64.wholeOf_mul_lt (n := n) microsecondsPerSecond_pos
    have hmore := Binary64.lt_wholeOf_succ_mul (n := n) microsecondsPerSecond_pos
    rw [Nat.add_mul, Nat.one_mul] at hmore
    rw [secondsOf_natCast]
    exact ⟨by exact_mod_cast hless, by exact_mod_cast hmore⟩
  obtain ⟨n, rfl | rfl⟩ := Int.eq_nat_or_neg i
  · exact hafter n
  · obtain ⟨hless, hmore⟩ := hafter n
    rw [secondsOf_neg, Int.neg_mul]
    omega

section Cross

variable {z i : Int}

/-- After the epoch a number of units that is not as far as the next microsecond has no more whole seconds. -/
theorem tdiv_le_secondsOf_of_nonneg (hi : 0 ≤ i)
    (h : z * microsecondsPerSecond < (i + 1) * unitsPerOne) : z.tdiv unitsPerOne ≤ secondsOf i := by
  rcases Int.le_total 0 z with hz | hz
  · obtain ⟨n, rfl⟩ := Int.eq_ofNat_of_zero_le hi
    obtain ⟨u, rfl⟩ := Int.eq_ofNat_of_zero_le hz
    rw [secondsOf_natCast, ← Int.ofNat_tdiv]
    apply Int.ofNat_le.mpr
    exact Binary64.div_le_wholeOf microsecondsPerSecond_pos (by exact_mod_cast h)
  · calc z.tdiv unitsPerOne
      _ ≤ Int.tdiv 0 unitsPerOne := Int.tdiv_le_tdiv (Int.natCast_pos.mpr unitsPerOne_pos) hz
      _ = 0 := Int.zero_tdiv _
      _ ≤ secondsOf i := secondsOf_nonneg hi

theorem nonpos_of_mul_le (hi : i ≤ 0) (h : z * microsecondsPerSecond ≤ i * unitsPerOne) : z ≤ 0 := by
  have hproduct := Int.mul_nonpos_of_nonpos_of_nonneg hi (Int.natCast_nonneg unitsPerOne)
  unfold microsecondsPerSecond at h
  omega

variable (hspaced : IsSpaced z.natAbs) (hi : i.natAbs / microsecondsPerSecond < 2 ^ 52)
include hspaced hi

/-- Where a number of units is not above some microseconds, it has no more whole seconds. -/
theorem tdiv_le_secondsOf (h : z * microsecondsPerSecond ≤ i * unitsPerOne) :
    z.tdiv unitsPerOne ≤ secondsOf i := by
  rcases Int.le_total 0 i with hpos | hneg
  · apply tdiv_le_secondsOf_of_nonneg hpos
    rw [Int.add_mul, Int.one_mul]
    exact Int.lt_add_of_le_of_pos h (Int.natCast_pos.mpr unitsPerOne_pos)
  · -- Before the epoch the number is further from it than the microseconds.
    obtain ⟨u, rfl⟩ := Int.exists_eq_neg_ofNat (nonpos_of_mul_le hneg h)
    obtain ⟨n, rfl⟩ := Int.exists_eq_neg_ofNat hneg
    rw [Int.natAbs_neg, Int.natAbs_natCast] at hspaced hi
    rw [Int.neg_mul, Int.neg_mul, Int.neg_le_neg_iff] at h
    rw [secondsOf_neg, Int.neg_tdiv, secondsOf_natCast, ← Int.ofNat_tdiv, Int.neg_le_neg_iff]
    apply Int.ofNat_le.mpr
    exact Binary64.wholeOf_le_div_of_le microsecondsPerSecond_pos hspaced (by decide) hi
      (by exact_mod_cast h)

theorem secondsOf_le_tdiv (h : i * unitsPerOne ≤ z * microsecondsPerSecond) :
    secondsOf i ≤ z.tdiv unitsPerOne := by
  have hmirrored : -z * microsecondsPerSecond ≤ -i * unitsPerOne := by
    rw [Int.neg_mul, Int.neg_mul]
    exact Int.neg_le_neg h
  have hle := tdiv_le_secondsOf (by rwa [Int.natAbs_neg]) (by rwa [Int.natAbs_neg]) hmirrored
  rw [Int.neg_tdiv, secondsOf_neg] at hle
  exact Int.neg_le_neg_iff.mp hle

/-- A number of units between some microseconds and the next ones has more whole seconds exactly if the
microseconds are whole seconds before the epoch. -/
theorem tdiv_le_secondsOf_iff (hlow : i * unitsPerOne < z * microsecondsPerSecond)
    (hhigh : z * microsecondsPerSecond < (i + 1) * unitsPerOne) :
    z.tdiv unitsPerOne ≤ secondsOf i ↔ ¬(i < 0 ∧ (microsecondsPerSecond : Int) ∣ i) := by
  rcases lt_or_ge i 0 with hneg | hpos
  · obtain ⟨u, rfl⟩ := Int.exists_eq_neg_ofNat (nonpos_of_mul_le hneg (Int.le_of_lt hhigh))
    obtain ⟨n, rfl⟩ := Int.exists_eq_neg_ofNat (Int.le_of_lt hneg)
    rw [Int.natAbs_neg, Int.natAbs_natCast] at hspaced hi
    rw [Int.neg_mul, Int.neg_mul, Int.neg_lt_neg_iff] at hlow
    rw [secondsOf_neg, Int.neg_tdiv, secondsOf_natCast, ← Int.ofNat_tdiv, Int.neg_le_neg_iff,
      Int.ofNat_le, Int.dvd_neg, Int.natCast_dvd_natCast]
    by_cases hdvd : microsecondsPerSecond ∣ n
    · have hless := Binary64.div_lt_wholeOf_of_dvd microsecondsPerSecond_pos hdvd (by exact_mod_cast hlow)
      exact iff_of_false (Nat.not_le.mpr hless) fun hnot => hnot ⟨hneg, hdvd⟩
    · have hnext : n * unitsPerOne < u * microsecondsPerSecond + unitsPerOne := by
        rw [Int.neg_mul, Int.add_mul, Int.neg_mul, Int.one_mul] at hhigh
        omega
      exact iff_of_true (Binary64.wholeOf_le_div microsecondsPerSecond_pos hspaced (by decide) hi hdvd hnext)
        fun hwhole => hdvd hwhole.2
  · exact iff_of_true (tdiv_le_secondsOf_of_nonneg hpos hhigh) fun hwhole => Int.not_lt.mpr hpos hwhole.1

end Cross

end DateTime

theorem abs_sub_lt_one {n q d : ℚ} (hd : 0 < d) (hlow : n * d < q * d + d) (hhigh : q * d < n * d + d) :
    |n - q| < 1 := by
  rw [abs_sub_lt_iff]
  constructor <;>
  · apply lt_of_mul_lt_mul_right _ (le_of_lt hd)
    rw [sub_mul, one_mul]
    linarith only [hlow, hhigh]

namespace Number

open Binary64 (unitsPerOne unitsPerOne_pos IsSpaced)

/-- The seconds that a number stands for. -/
def seconds (x : Number) : ℚ := x.signedUnits / unitsPerOne

theorem isSpaced_signedUnits (x : Number) : IsSpaced x.signedUnits.natAbs := by
  cases x with
  | int i =>
    rw [signedUnits, Int.natAbs_mul, Int.natAbs_natCast]
    exact Binary64.isSpaced_mul_unitsPerOne _
  | float x =>
    have hmagnitude : x.signedUnits.natAbs = x.units := by
      unfold Binary64.signedUnits
      split
      · rw [Int.natAbs_neg, Int.natAbs_natCast]
      · exact Int.natAbs_natCast _
    rw [signedUnits, hmagnitude]
    exact Binary64.isSpaced_units x

theorem unitsPerOne_cast_pos : (0 : ℚ) < unitsPerOne := Nat.cast_pos.mpr unitsPerOne_pos

theorem seconds_mul_unitsPerOne (x : Number) : x.seconds * unitsPerOne = x.signedUnits :=
  div_mul_cancel₀ _ (ne_of_gt unitsPerOne_cast_pos)

theorem seconds_int (i : Int) : (int i).seconds = i := by
  rw [seconds, signedUnits, Int.cast_mul, Int.cast_natCast,
    mul_div_cancel_right₀ _ (ne_of_gt unitsPerOne_cast_pos)]

theorem truncate_eq_ok {x : Number} {n : Int} (h : x.truncate = .ok n) :
    n = x.signedUnits.tdiv unitsPerOne := by
  cases x with
  | int i =>
    obtain rfl := Except.ok.inj h
    exact (Int.mul_tdiv_cancel _ (Int.ne_of_gt (Int.natCast_pos.mpr unitsPerOne_pos))).symm
  | float x =>
    cases x with
    | nan | infinity => cases h
    | finite negative e f =>
      obtain rfl := Except.ok.inj ((DateTime.truncate_finite negative e f).symm.trans h)
      unfold signedUnits Binary64.signedUnits
      cases negative with
      | false => exact Int.ofNat_tdiv _ _
      | true =>
        show -((_ / unitsPerOne : Nat) : Int) = Int.tdiv (-(_ : Int)) unitsPerOne
        rw [Int.neg_tdiv, Int.ofNat_tdiv]

section Truncate

variable {x y : Number} {n m : Int} (hn : x.truncate = .ok n)
include hn

theorem truncate_le_truncate (hm : y.truncate = .ok m) (h : x.seconds ≤ y.seconds) : n ≤ m := by
  rw [truncate_eq_ok hn, truncate_eq_ok hm]
  apply Int.tdiv_le_tdiv (Int.natCast_pos.mpr unitsPerOne_pos)
  exact_mod_cast (div_le_div_iff_of_pos_right unitsPerOne_cast_pos).mp h

theorem abs_truncate_sub_lt : |(n : ℚ) - x.seconds| < 1 := by
  obtain rfl := truncate_eq_ok hn
  have hsum := Int.tdiv_mul_add_tmod x.signedUnits unitsPerOne
  have hlow := Int.lt_tmod_of_pos x.signedUnits (Int.natCast_pos.mpr unitsPerOne_pos)
  have hhigh := Int.tmod_lt_of_pos x.signedUnits (Int.natCast_pos.mpr unitsPerOne_pos)
  apply abs_sub_lt_one unitsPerOne_cast_pos
  · rw [seconds_mul_unitsPerOne]
    exact_mod_cast (show _ < _ by omega)
  · rw [seconds_mul_unitsPerOne]
    exact_mod_cast (show _ < _ by omega)

end Truncate

end Number

namespace DateTime

open Binary64 (unitsPerOne unitsPerOne_pos)

/-- The seconds from the epoch to a point in time. -/
def seconds (t : DateTime) : ℚ := t.instant / microsecondsPerSecond

/-- A reading gives a point in time to the microsecond, and what is less than one is left out. -/
structure Shows (t : DateTime) (q : ℚ) : Prop where
  le : t.seconds ≤ q
  lt : q < t.seconds + 1 / microsecondsPerSecond

theorem microsecondsPerSecond_cast_pos : (0 : ℚ) < microsecondsPerSecond :=
  Nat.cast_pos.mpr microsecondsPerSecond_pos

theorem shows_seconds (t : DateTime) : t.Shows t.seconds :=
  ⟨le_refl _, lt_add_of_pos_right _ (one_div_pos.mpr microsecondsPerSecond_cast_pos)⟩

variable {t u : DateTime} {q r : ℚ}

theorem seconds_of_instant {n : Int} (h : t.instant = n * microsecondsPerSecond) : t.seconds = n := by
  rw [seconds, h, Int.cast_mul, Int.cast_natCast,
    mul_div_cancel_right₀ _ (ne_of_gt microsecondsPerSecond_cast_pos)]

theorem Shows.instant_le (h : t.Shows q) : t.instant ≤ q * microsecondsPerSecond :=
  (div_le_iff₀ microsecondsPerSecond_cast_pos).mp h.le

theorem Shows.lt_instant (h : t.Shows q) : q * microsecondsPerSecond < t.instant + 1 := by
  have hlt := h.lt
  rwa [seconds, ← add_div, lt_div_iff₀ microsecondsPerSecond_cast_pos] at hlt

theorem Shows.abs_secondsOf_sub_lt (h : t.Shows q) : |(secondsOf t.instant : ℚ) - q| < 1 := by
  obtain ⟨hless, hmore⟩ := secondsOf_mul_lt t.instant
  have hle := h.instant_le
  have hlt := h.lt_instant
  have hless : (secondsOf t.instant * microsecondsPerSecond : ℚ) < t.instant + microsecondsPerSecond := by
    exact_mod_cast hless
  have hmore : (t.instant + 1 : ℚ) ≤ secondsOf t.instant * microsecondsPerSecond + microsecondsPerSecond := by
    exact_mod_cast hmore
  exact abs_sub_lt_one microsecondsPerSecond_cast_pos (by linarith) (by linarith)

theorem Shows.secondsOf_le_secondsOf (ht : t.Shows q) (hu : u.Shows r) (h : q ≤ r) :
    secondsOf t.instant ≤ secondsOf u.instant := by
  have hle : q * microsecondsPerSecond ≤ r * microsecondsPerSecond :=
    mul_le_mul_of_nonneg_right h (le_of_lt microsecondsPerSecond_cast_pos)
  have hless : (t.instant : ℚ) < u.instant + 1 :=
    lt_of_le_of_lt (le_trans ht.instant_le hle) hu.lt_instant
  apply secondsOf_mono
  apply Int.le_of_lt_add_one
  exact_mod_cast hless

section Number

variable {x : Number} {n : Int} (hn : x.truncate = .ok n)
include hn

theorem Shows.secondsOf_le_truncate (ht : t.Shows q) (h : q ≤ x.seconds) : secondsOf t.instant ≤ n := by
  rw [Number.truncate_eq_ok hn]
  apply secondsOf_le_tdiv x.isSpaced_signedUnits t.div_instant_lt
  have hle : t.seconds ≤ x.seconds := le_trans ht.le h
  rw [seconds, Number.seconds, div_le_div_iff₀ microsecondsPerSecond_cast_pos Number.unitsPerOne_cast_pos]
    at hle
  exact_mod_cast hle

/-- A number and a reading, which may be before the number by what it leaves out. -/
theorem Shows.truncate_le_secondsOf_iff (hu : u.Shows r) (h : x.seconds ≤ r) :
    n ≤ secondsOf u.instant ↔
      ¬(u.instant < 0 ∧ (microsecondsPerSecond : Int) ∣ u.instant ∧ u.seconds < x.seconds) := by
  rw [Number.truncate_eq_ok hn]
  have hcross : u.seconds < x.seconds ↔
      u.instant * unitsPerOne < x.signedUnits * microsecondsPerSecond := by
    rw [seconds, Number.seconds,
      div_lt_div_iff₀ microsecondsPerSecond_cast_pos Number.unitsPerOne_cast_pos]
    exact_mod_cast Iff.rfl
  have hhigh : x.signedUnits * microsecondsPerSecond < (u.instant + 1) * unitsPerOne := by
    have hless : x.seconds < (u.instant + 1) / microsecondsPerSecond :=
      (lt_div_iff₀ microsecondsPerSecond_cast_pos).mpr (lt_of_le_of_lt
        (mul_le_mul_of_nonneg_right h (le_of_lt microsecondsPerSecond_cast_pos)) hu.lt_instant)
    rw [Number.seconds, div_lt_div_iff₀ Number.unitsPerOne_cast_pos microsecondsPerSecond_cast_pos] at hless
    exact_mod_cast hless
  by_cases hless : u.seconds < x.seconds
  · rw [tdiv_le_secondsOf_iff x.isSpaced_signedUnits u.div_instant_lt (hcross.mp hless) hhigh]
    simp only [hless, and_true]
  · refine iff_of_true ?_ fun hslip => hless hslip.2.2
    exact tdiv_le_secondsOf x.isSpaced_signedUnits u.div_instant_lt (Int.not_lt.mp (mt hcross.mpr hless))

end Number

/-- No whole number is between a reading and what it leaves out. -/
theorem Shows.int_le (hu : u.Shows r) {i : Int} (h : (Number.int i).seconds ≤ r) :
    (Number.int i).seconds ≤ u.seconds := by
  have hless := lt_of_le_of_lt
    (mul_le_mul_of_nonneg_right h (le_of_lt microsecondsPerSecond_cast_pos)) hu.lt_instant
  rw [Number.seconds_int] at hless ⊢
  rw [seconds, le_div_iff₀ microsecondsPerSecond_cast_pos]
  have hle : i * microsecondsPerSecond < u.instant + 1 := by exact_mod_cast hless
  exact_mod_cast Int.le_of_lt_add_one hle

end DateTime

end Attest
