import Attest.Number.Binary64

/-! Rounding to floating point numbers. It depends on a fraction only and not on how the fraction is
written, and numbers that are representable, among them whole numbers of at most 53 bits, are their
own neighbours. -/

namespace Attest

theorem roundHalfEven_mul_mul {k : Nat} (hk : 0 < k) (n d : Nat) :
    roundHalfEven (k * n) (k * d) = roundHalfEven n d := by
  have hlow : 2 * (k * (n % d)) < k * d ↔ 2 * (n % d) < d := by
    rw [Nat.mul_left_comm, Nat.mul_lt_mul_left hk]
  have hhigh : k * d < 2 * (k * (n % d)) ↔ d < 2 * (n % d) := by
    rw [Nat.mul_left_comm 2, Nat.mul_lt_mul_left hk]
  simp only [roundHalfEven, Nat.mul_div_mul_left n d hk, Nat.mul_mod_mul_left, hlow, hhigh]

theorem div_le_roundHalfEven (n d : Nat) : n / d ≤ roundHalfEven n d := by
  simp only [roundHalfEven]
  split
  · exact Nat.le_refl _
  · split <;> omega

theorem roundHalfEven_le (n d : Nat) : roundHalfEven n d ≤ n / d + 1 := by
  simp only [roundHalfEven]
  split
  · exact Nat.le_succ _
  · split <;> omega

theorem roundHalfEven_of_small {n d : Nat} (h : 2 * n < d) : roundHalfEven n d = 0 := by
  have hn : n < d := by omega
  simp [roundHalfEven, Nat.div_eq_of_lt hn, Nat.mod_eq_of_lt hn, h]

namespace Binary64

/-- The exponent is kept as a variable, so that the power is not formed. -/
theorem exists_unitsPerOne_eq : ∃ k, k = 1074 ∧ unitsPerOne = 2 ^ k := ⟨1074, rfl, rfl⟩

theorem unitsPerOne_pos : 0 < unitsPerOne := by
  obtain ⟨k, -, hk⟩ := exists_unitsPerOne_eq
  rw [hk]
  exact Nat.two_pow_pos k

theorem round_mul_mul {k : Nat} (hk : 0 < k) (negative : Bool) (n d : Nat) :
    round negative (k * n) (k * d) = round negative n d := by
  simp only [round, Nat.mul_assoc k, Nat.mul_div_mul_left _ d hk, roundHalfEven_mul_mul hk]

/-- Two ways to write a fraction are rounded to the same number. -/
theorem round_congr {n d n' d' : Nat} (negative : Bool) (hd : 0 < d) (hd' : 0 < d')
    (h : n * d' = n' * d) : round negative n d = round negative n' d' := by
  calc round negative n d
    _ = round negative (d' * n) (d' * d) := (round_mul_mul hd' negative n d).symm
    _ = round negative (d * n') (d * d') := by
      rw [Nat.mul_comm d' n, h, Nat.mul_comm n' d, Nat.mul_comm d' d]
    _ = round negative n' d' := round_mul_mul hd negative n' d'

/-- No bit of a number lies below its 53 highest ones. -/
def Fits (n : Nat) : Prop := 2 ^ (n.log2 - 52) ∣ n

theorem log2_mul_two_pow_lt {m : Nat} (hm : m < 2 ^ 53) (k : Nat) :
    (m * 2 ^ k).log2 < 53 + k := by
  by_cases hzero : m * 2 ^ k = 0
  · rw [hzero, Nat.log2_zero]
    omega
  · rw [Nat.log2_lt hzero, Nat.pow_add]
    exact Nat.mul_lt_mul_of_pos_right hm (Nat.two_pow_pos k)

theorem fits_mul_two_pow {m : Nat} (hm : m < 2 ^ 53) (k : Nat) : Fits (m * 2 ^ k) := by
  have hlog := log2_mul_two_pow_lt hm k
  exact Nat.dvd_trans (Nat.pow_dvd_pow 2 (by omega)) (Nat.dvd_mul_left (2 ^ k) m)

/-- A whole number of units is rounded to the number that its highest bits make. -/
theorem round_units_of_fits {n : Nat} (h : Fits n) (negative : Bool) :
    round negative n unitsPerOne = ofUnits negative n := by
  obtain ⟨m, hm⟩ := h
  have hround : roundHalfEven (n * unitsPerOne) (unitsPerOne * 2 ^ (n.log2 - 52)) = m := by
    have hmul : n * unitsPerOne = m * (unitsPerOne * 2 ^ (n.log2 - 52)) := by
      rw [Nat.mul_comm unitsPerOne, ← Nat.mul_assoc, Nat.mul_comm m, ← hm]
    rw [hmul, roundHalfEven_mul _ (Nat.mul_pos unitsPerOne_pos (Nat.two_pow_pos _))]
  simp only [round, Nat.mul_div_cancel n unitsPerOne_pos, hround]
  rw [Nat.mul_comm, ← hm]

theorem log2_mul_two_pow {m k : Nat} (hlow : 2 ^ 52 ≤ m) (hhigh : m < 2 ^ 53) :
    (m * 2 ^ k).log2 = 52 + k := by
  have hne : m * 2 ^ k ≠ 0 := Nat.mul_ne_zero (by omega) (Nat.pos_iff_ne_zero.mp (Nat.two_pow_pos k))
  rw [Nat.log2_eq_iff hne, Nat.pow_add, show 52 + k + 1 = 53 + k by omega, Nat.pow_add]
  exact ⟨Nat.mul_le_mul_right _ hlow, Nat.mul_lt_mul_of_pos_right hhigh (Nat.two_pow_pos k)⟩

/-- The units of a finite number are those of no other number of its sign. -/
theorem ofUnits_units (negative : Bool) (e : Fin 2047) (f : Fin (2 ^ 52)) :
    ofUnits negative (finite negative e f).units = finite negative e f := by
  obtain ⟨e, he⟩ := e
  cases e with
  | zero =>
    have hunits : (finite negative ⟨0, he⟩ f).units = f.val := rfl
    rw [hunits, ofUnits, if_pos f.isLt]
    congr 1
    exact Fin.ext (Nat.mod_eq_of_lt f.isLt)
  | succ k =>
    have hunits : (finite negative ⟨k + 1, he⟩ f).units = (2 ^ 52 + f.val) * 2 ^ k := rfl
    have hlow : 2 ^ 52 ≤ 2 ^ 52 + f.val := Nat.le_add_right _ _
    have hhigh : 2 ^ 52 + f.val < 2 ^ 53 := by
      have := f.isLt
      omega
    have hlarge : ¬(2 ^ 52 + f.val) * 2 ^ k < 2 ^ 52 :=
      Nat.not_lt.mpr (Nat.le_trans hlow (Nat.le_mul_of_pos_right _ (Nat.two_pow_pos k)))
    rw [hunits, ofUnits, if_neg hlarge]
    simp only [log2_mul_two_pow hlow hhigh, Nat.add_sub_cancel_left, he, dite_true,
      Nat.mul_div_cancel _ (Nat.two_pow_pos k)]
    congr 1
    refine Fin.ext ?_
    show (2 ^ 52 + f.val) % 2 ^ 52 = f.val
    rw [Nat.add_mod_left, Nat.mod_eq_of_lt f.isLt]

theorem fits_units (negative : Bool) (e : Fin 2047) (f : Fin (2 ^ 52)) :
    Fits (finite negative e f).units := by
  obtain ⟨e, he⟩ := e
  cases e with
  | zero =>
    have hunits : (finite negative ⟨0, he⟩ f).units = f.val * 2 ^ 0 := by simp [units]
    rw [hunits]
    exact fits_mul_two_pow (Nat.lt_trans f.isLt (by decide)) 0
  | succ k =>
    have hunits : (finite negative ⟨k + 1, he⟩ f).units = (2 ^ 52 + f.val) * 2 ^ k := rfl
    rw [hunits]
    exact fits_mul_two_pow (by have := f.isLt; omega) k

/-- A finite number is the nearest one to itself. -/
theorem round_units (negative : Bool) (e : Fin 2047) (f : Fin (2 ^ 52)) :
    round negative (finite negative e f).units unitsPerOne = finite negative e f := by
  rw [round_units_of_fits (fits_units negative e f), ofUnits_units]

/-- A number of units that is not too large makes a finite number of as many units. -/
theorem exists_ofUnits_of_fits {n : Nat} (hfits : Fits n) (hn : n.log2 < 2098) (negative : Bool) :
    ∃ e f, ofUnits negative n = finite negative e f ∧ (finite negative e f).units = n := by
  unfold ofUnits
  by_cases hsmall : n < 2 ^ 52
  · rw [if_pos hsmall]
    exact ⟨0, _, rfl, Nat.mod_eq_of_lt hsmall⟩
  · rw [if_neg hsmall]
    have hne : n ≠ 0 := by omega
    have hge : 52 ≤ n.log2 := (Nat.le_log2 hne).mpr (Nat.le_of_not_lt hsmall)
    have hshift : n.log2 - 52 + 1 < 2047 := by omega
    simp only [hshift, dite_true]
    refine ⟨_, _, rfl, ?_⟩
    obtain ⟨m, hm⟩ := hfits
    have hquotient : n / 2 ^ (n.log2 - 52) = m := by
      exact Nat.div_eq_of_eq_mul_right (Nat.two_pow_pos _) hm
    have hlow : 2 ^ 52 ≤ m := by
      rw [← hquotient, Nat.le_div_iff_mul_le (Nat.two_pow_pos _), ← Nat.pow_add]
      rw [show 52 + (n.log2 - 52) = n.log2 by omega]
      exact Nat.log2_self_le hne
    have hhigh : m < 2 ^ 53 := by
      rw [← hquotient, Nat.div_lt_iff_lt_mul (Nat.two_pow_pos _), ← Nat.pow_add]
      rw [show 53 + (n.log2 - 52) = n.log2 + 1 by omega]
      exact Nat.lt_log2_self
    have hmod : 2 ^ 52 + m % 2 ^ 52 = m := by omega
    show (2 ^ 52 + n / 2 ^ (n.log2 - 52) % 2 ^ 52) * 2 ^ (n.log2 - 52) = n
    rw [hquotient, hmod, Nat.mul_comm, ← hm]

/-- A whole number of at most 53 bits, also one that is written as a fraction, has itself as its whole
part when it is rounded. -/
theorem truncate_round_whole {n d : Nat} (hn : n < 2 ^ 53) (hd : 0 < d) (negative : Bool) :
    (round negative (n * d) d).truncate = .ok (if negative then -(n : Int) else n) := by
  obtain ⟨k, hk, hunit⟩ := exists_unitsPerOne_eq
  have hfits : Fits (n * unitsPerOne) := by
    rw [hunit]
    exact fits_mul_two_pow hn k
  have hlog : (n * unitsPerOne).log2 < 2098 := by
    have := log2_mul_two_pow_lt hn k
    rw [hunit]
    omega
  have hround : round negative (n * d) d = ofUnits negative (n * unitsPerOne) := by
    rw [← round_units_of_fits hfits]
    exact round_congr negative hd unitsPerOne_pos
      (by rw [Nat.mul_assoc, Nat.mul_comm d, Nat.mul_assoc])
  obtain ⟨e, f, hof, hsame⟩ := exists_ofUnits_of_fits hfits hlog negative
  have hquotient : (finite negative e f).units / unitsPerOne = n := by
    rw [hsame]
    exact Nat.mul_div_cancel n unitsPerOne_pos
  rw [hround, hof]
  simp only [truncate, hquotient]

/-- Bits below the 53 highest ones are dropped. -/
theorem units_ofUnits_le (negative : Bool) (n : Nat) : (ofUnits negative n).units ≤ n := by
  unfold ofUnits
  split
  · exact Nat.mod_le _ _
  · rename_i hlarge
    simp only
    split
    · have hne : n ≠ 0 := by omega
      have hquotient : n / 2 ^ (n.log2 - 52) < 2 ^ 53 := by
        rw [Nat.div_lt_iff_lt_mul (Nat.two_pow_pos _), ← Nat.pow_add]
        exact Nat.lt_of_lt_of_le Nat.lt_log2_self (Nat.pow_le_pow_right (by decide) (by omega))
      have hlow : 2 ^ 52 ≤ n / 2 ^ (n.log2 - 52) := by
        have hge : 52 ≤ n.log2 := (Nat.le_log2 hne).mpr (Nat.le_of_not_lt hlarge)
        rw [Nat.le_div_iff_mul_le (Nat.two_pow_pos _), ← Nat.pow_add, Nat.add_sub_cancel' hge]
        exact Nat.log2_self_le hne
      have hsame : 2 ^ 52 + n / 2 ^ (n.log2 - 52) % 2 ^ 52 = n / 2 ^ (n.log2 - 52) := by omega
      show (2 ^ 52 + n / 2 ^ (n.log2 - 52) % 2 ^ 52) * 2 ^ (n.log2 - 52) ≤ n
      rw [hsame]
      exact Nat.div_mul_le_self _ _
    · exact Nat.zero_le _

/-- Rounding a whole number of units at most doubles it. -/
theorem units_round_le (negative : Bool) (n : Nat) :
    (round negative n unitsPerOne).units ≤ 2 * n := by
  have hround : roundHalfEven (n * unitsPerOne) (unitsPerOne * 2 ^ (n.log2 - 52)) =
      roundHalfEven n (2 ^ (n.log2 - 52)) := by
    rw [Nat.mul_comm n, roundHalfEven_mul_mul unitsPerOne_pos]
  simp only [round, Nat.mul_div_cancel n unitsPerOne_pos, hround]
  refine Nat.le_trans (units_ofUnits_le _ _) ?_
  by_cases hsmall : n.log2 ≤ 52
  · have hexact : roundHalfEven (n * 1) 1 = n := roundHalfEven_mul n Nat.one_pos
    rw [Nat.mul_one] at hexact
    simp only [Nat.sub_eq_zero_of_le hsmall, Nat.pow_zero, Nat.mul_one, hexact]
    omega
  · have hne : n ≠ 0 := by
      rintro rfl
      exact hsmall (by rw [Nat.log2_zero]; omega)
    calc roundHalfEven n (2 ^ (n.log2 - 52)) * 2 ^ (n.log2 - 52)
      _ ≤ (n / 2 ^ (n.log2 - 52) + 1) * 2 ^ (n.log2 - 52) :=
        Nat.mul_le_mul_right _ (roundHalfEven_le _ _)
      _ = n / 2 ^ (n.log2 - 52) * 2 ^ (n.log2 - 52) + 2 ^ (n.log2 - 52) := Nat.succ_mul _ _
      _ ≤ n + n := Nat.add_le_add (Nat.div_mul_le_self _ _)
        (Nat.le_trans (Nat.pow_le_pow_right (by decide) (Nat.sub_le _ _)) (Nat.log2_self_le hne))
      _ = 2 * n := (Nat.two_mul n).symm

theorem units_round_of_fits {n : Nat} (hfits : Fits n) (hn : n.log2 < 2098) (negative : Bool) :
    (round negative n unitsPerOne).units = n := by
  obtain ⟨e, f, hof, hsame⟩ := exists_ofUnits_of_fits hfits hn negative
  rw [round_units_of_fits hfits, hof, hsame]

/-- The units of a large number are those of a multiple of a power of two. -/
theorem two_pow_dvd_units {x : Binary64} {j : Nat} (h : 2 ^ (j + 52) ≤ x.units) :
    2 ^ j ∣ x.units := by
  cases x with
  | finite negative e f =>
    have hne : (finite negative e f).units ≠ 0 := by
      have := Nat.two_pow_pos (j + 52)
      omega
    have hlog : j + 52 ≤ (finite negative e f).units.log2 := (Nat.le_log2 hne).mpr h
    have hfits : 2 ^ ((finite negative e f).units.log2 - 52) ∣ (finite negative e f).units :=
      fits_units negative e f
    exact Nat.dvd_trans (Nat.pow_dvd_pow 2 (by omega)) hfits
  | nan | infinity => exact Nat.dvd_zero _
end Binary64

end Attest
