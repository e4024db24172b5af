import Attest.Proofs.Number.Rounding

/-! The whole part of a quotient that was rounded to a floating point number. Rounding happens at a
binary place that the whole part decides, so it reaches the next whole number only from very near
below, and then the whole part is that number. -/

namespace Attest

/-- An even number is reached by rounding from half below it on. -/
theorem le_roundHalfEven_iff {d : Nat} (hd : 0 < d) (n h : Nat) :
    2 * h ≤ roundHalfEven n d ↔ 2 * (2 * h) * d ≤ 2 * n + d := by
  have hn := Nat.div_add_mod n d
  have hr := Nat.mod_lt n hd
  have hlow := div_le_roundHalfEven n d
  have hhigh := roundHalfEven_le n d
  rcases Nat.lt_trichotomy (n / d + 1) (2 * h) with hless | hnext | hmore
  · have hproduct : (n / d + 2) * d ≤ 2 * h * d := Nat.mul_le_mul_right d hless
    rw [Nat.add_mul, Nat.mul_comm (n / d)] at hproduct
    rw [Nat.mul_assoc 2]
    omega
  · have hproduct : 2 * h * d = d * (n / d) + d := by rw [← hnext, Nat.succ_mul, Nat.mul_comm]
    rw [Nat.mul_assoc 2, hproduct]
    -- The quotient is odd, so that a tie goes to the even number above it.
    simp only [roundHalfEven]
    split
    · omega
    · split <;> omega
  · have hproduct : 2 * h * d ≤ n / d * d := Nat.mul_le_mul_right d (Nat.le_of_lt_succ hmore)
    rw [Nat.mul_comm (n / d)] at hproduct
    rw [Nat.mul_assoc 2]
    omega

/-- The whole part of a quotient that is rounded to `p` binary places. -/
def wholePart (p n d : Nat) : Nat := roundHalfEven (n * 2 ^ p) d / 2 ^ p

/-- The whole part is a number or more if the quotient is not further below it than half of the
last binary place. -/
theorem le_wholePart_iff {p d : Nat} (hp : 0 < p) (hd : 0 < d) (n m : Nat) :
    m ≤ wholePart p n d ↔ m * d * 2 ^ (p + 1) ≤ n * 2 ^ (p + 1) + d := by
  obtain ⟨k, rfl⟩ : ∃ k, p = k + 1 := ⟨p - 1, by omega⟩
  have heven : m * 2 ^ (k + 1) = 2 * (m * 2 ^ k) := by rw [Nat.pow_succ', Nat.mul_left_comm]
  have hleft : 2 * (m * 2 ^ (k + 1)) * d = m * d * 2 ^ (k + 1 + 1) := by
    rw [Nat.pow_succ' (n := k + 1), Nat.mul_left_comm (m * d), Nat.mul_assoc, Nat.mul_right_comm m]
  have hright : 2 * (n * 2 ^ (k + 1)) = n * 2 ^ (k + 1 + 1) := by
    rw [Nat.pow_succ' (n := k + 1), Nat.mul_left_comm n]
  rw [wholePart, Nat.le_div_iff_mul_le (Nat.two_pow_pos _), heven, le_roundHalfEven_iff hd, ← heven,
    hleft, hright]

theorem div_le_wholePart {p d : Nat} (hp : 0 < p) (hd : 0 < d) (n : Nat) :
    n / d ≤ wholePart p n d := by
  apply (le_wholePart_iff hp hd n (n / d)).mpr
  have hmul := Nat.mul_le_mul_right (2 ^ (p + 1)) (Nat.div_mul_le_self n d)
  omega

theorem wholePart_le {p d : Nat} (hp : 0 < p) (hd : 0 < d) (n : Nat) :
    wholePart p n d ≤ n / d + 1 := by
  apply Nat.le_of_lt_succ
  apply Nat.lt_of_not_le
  rw [le_wholePart_iff hp hd, Nat.not_le]
  have hn : n + d < (n / d + 2) * d := by
    have := Nat.div_add_mod n d
    have := Nat.mod_lt n hd
    rw [Nat.add_mul, Nat.mul_comm (n / d)]
    omega
  calc n * 2 ^ (p + 1) + d
    _ ≤ (n + d) * 2 ^ (p + 1) := by
      rw [Nat.add_mul]
      exact Nat.add_le_add_left (Nat.le_mul_of_pos_right d (Nat.two_pow_pos _)) _
    _ < (n / d + 2) * d * 2 ^ (p + 1) := Nat.mul_lt_mul_of_pos_right hn (Nat.two_pow_pos _)

/-- What is missing to the next whole number is at most half of the last of `p` binary places. -/
def reachesNext (p n d : Nat) : Bool := decide ((d - n % d) * 2 ^ (p + 1) ≤ d)

theorem div_succ_mul {d : Nat} (hd : 0 < d) (n : Nat) : (n / d + 1) * d = n + (d - n % d) := by
  have hn := Nat.div_add_mod n d
  have hr := Nat.mod_lt n hd
  rw [Nat.add_mul, Nat.mul_comm (n / d)]
  omega

theorem wholePart_eq {p d : Nat} (hp : 0 < p) (hd : 0 < d) (n : Nat) :
    wholePart p n d = n / d + if reachesNext p n d then 1 else 0 := by
  have hlow := div_le_wholePart hp hd n
  have hhigh := wholePart_le hp hd n
  have hnext : n / d + 1 ≤ wholePart p n d ↔ reachesNext p n d = true := by
    rw [le_wholePart_iff hp hd, reachesNext, decide_eq_true_eq]
    rw [div_succ_mul hd, Nat.add_mul]
    exact Nat.add_le_add_iff_left
  by_cases h : reachesNext p n d = true
  · rw [if_pos h]
    have := hnext.mpr h
    omega
  · rw [if_neg h]
    have := mt hnext.mp h
    omega

namespace Binary64

/-- The number of binary places that a floating point number has after its whole part, unless this
is zero. -/
def binaryPlaces (whole : Nat) : Nat := 52 - whole.log2

theorem log2_mul_two_pow_div {n d k : Nat} (hd : 0 < d) (h : n / d ≠ 0) :
    (n * 2 ^ k / d).log2 = (n / d).log2 + k := by
  have hlow : n / d * 2 ^ k ≤ n * 2 ^ k / d := by
    rw [Nat.le_div_iff_mul_le hd, Nat.mul_right_comm]
    exact Nat.mul_le_mul_right _ (Nat.div_mul_le_self n d)
  have hhigh : n * 2 ^ k / d < (n / d + 1) * 2 ^ k := by
    rw [Nat.div_lt_iff_lt_mul hd, Nat.mul_right_comm, Nat.mul_comm (n / d + 1)]
    exact Nat.mul_lt_mul_of_pos_right (Nat.lt_mul_div_succ n hd) (Nat.two_pow_pos k)
  have hbits : 2 ^ (n / d).log2 ≤ n / d := Nat.log2_self_le h
  have hnext : n / d + 1 ≤ 2 ^ ((n / d).log2 + 1) := Nat.lt_log2_self
  have hpos := Nat.two_pow_pos k
  have hne : n * 2 ^ k / d ≠ 0 := by
    have := Nat.mul_pos (Nat.pos_of_ne_zero h) hpos
    omega
  rw [Nat.log2_eq_iff hne]
  constructor
  · rw [Nat.pow_add]
    exact Nat.le_trans (Nat.mul_le_mul_right _ hbits) hlow
  · rw [Nat.add_right_comm, Nat.pow_add]
    exact Nat.lt_of_lt_of_le hhigh (Nat.mul_le_mul_right _ hnext)

/-- The binary places of a rounded quotient are as many as its whole part leaves room for, and more
than there are bits if it has none. -/
structure HasPlaces (p n d : Nat) : Prop where
  whole : n / d ≠ 0 → p = binaryPlaces (n / d)
  none : n / d = 0 → 53 ≤ p

/-- The binary places and the bits below them together are those of a unit. -/
theorem exists_hasPlaces {n d k : Nat} (hd : 0 < d) (hn : n / d < 2 ^ 52) (hk : 53 ≤ k) :
    ∃ p, p + ((n * 2 ^ k / d).log2 - 52) = k ∧ HasPlaces p n d := by
  by_cases hzero : n / d = 0
  · have hless : n * 2 ^ k / d < 2 ^ k := by
      rw [Nat.div_lt_iff_lt_mul hd, Nat.mul_comm (2 ^ k)]
      apply Nat.mul_lt_mul_of_pos_right _ (Nat.two_pow_pos k)
      exact (Nat.div_eq_zero_iff_lt hd).mp hzero
    have hlog : (n * 2 ^ k / d).log2 < k := by
      by_cases hne : n * 2 ^ k / d = 0
      · rw [hne, Nat.log2_zero]
        omega
      · exact (Nat.log2_lt hne).mpr hless
    refine ⟨k - ((n * 2 ^ k / d).log2 - 52), by omega, fun hne => absurd hzero hne, fun _ => ?_⟩
    omega
  · have hlog := log2_mul_two_pow_div (k := k) hd hzero
    have hbits := (Nat.log2_lt hzero).mpr hn
    refine ⟨binaryPlaces (n / d), ?_, fun _ => rfl, fun h => absurd h hzero⟩
    unfold binaryPlaces
    omega

theorem fits_mul_two_pow_of_le {m : Nat} (hm : m ≤ 2 ^ 53) (k : Nat) :
    Fits (m * 2 ^ k) ∧ (m * 2 ^ k).log2 ≤ 53 + k := by
  rcases Nat.lt_or_eq_of_le hm with hless | rfl
  · exact ⟨fits_mul_two_pow hless k, Nat.le_of_lt (log2_mul_two_pow_lt hless k)⟩
  · have hone : 2 ^ 53 * 2 ^ k = 1 * 2 ^ (53 + k) := by rw [← Nat.pow_add, Nat.one_mul]
    rw [hone]
    refine ⟨fits_mul_two_pow (by decide) _, Nat.le_of_eq ?_⟩
    rw [Nat.one_mul, Nat.log2_two_pow]

/-- A quotient is rounded to some binary places, and its whole part is that of the rounded quotient. -/
theorem exists_truncate_round {n d : Nat} (hd : 0 < d) (hn : n / d < 2 ^ 52) (negative : Bool) :
    ∃ p, HasPlaces p n d ∧ (round negative n d).truncate =
      .ok (if negative then -(wholePart p n d : Int) else wholePart p n d) := by
  obtain ⟨k, hk, hunit⟩ := exists_unitsPerOne_eq
  obtain ⟨p, hp, places⟩ := exists_hasPlaces hd hn (show 53 ≤ k by omega)
  obtain ⟨shift, hshift⟩ : ∃ shift, shift = (n * 2 ^ k / d).log2 - 52 := ⟨_, rfl⟩
  rw [← hshift] at hp
  have hpow : 2 ^ k = 2 ^ p * 2 ^ shift := by rw [← Nat.pow_add, hp]
  have hscaled : roundHalfEven (n * 2 ^ k) (d * 2 ^ shift) = roundHalfEven (n * 2 ^ p) d := by
    rw [hpow, ← Nat.mul_assoc, Nat.mul_comm _ (2 ^ shift), Nat.mul_comm d,
      roundHalfEven_mul_mul (Nat.two_pow_pos shift)]
  have hrounded : round negative n d =
      ofUnits negative (roundHalfEven (n * 2 ^ p) d * 2 ^ shift) := by
    simp only [round, hunit, ← hshift, hscaled]
  have hbits : n * 2 ^ p / d < 2 ^ 53 := by
    have hsame : n * 2 ^ p / d = n * 2 ^ k / d / 2 ^ shift := by
      rw [Nat.div_div_eq_div_mul, hpow, ← Nat.mul_assoc,
        Nat.mul_div_mul_right _ _ (Nat.two_pow_pos shift)]
    rw [hsame, Nat.div_lt_iff_lt_mul (Nat.two_pow_pos shift), ← Nat.pow_add]
    exact Nat.lt_of_lt_of_le Nat.lt_log2_self (Nat.pow_le_pow_right (by decide) (by omega))
  obtain ⟨hfits, hlog⟩ := fits_mul_two_pow_of_le
    (Nat.le_trans (roundHalfEven_le (n * 2 ^ p) d) hbits) shift
  obtain ⟨e, f, hof, hunits⟩ := exists_ofUnits_of_fits hfits (by omega) negative
  have hwhole : (finite negative e f).units / unitsPerOne = wholePart p n d := by
    rw [hunits, hunit, hpow, Nat.mul_div_mul_right _ _ (Nat.two_pow_pos shift), wholePart]
  refine ⟨p, places, ?_⟩
  rw [hrounded, hof]
  simp only [truncate, hwhole]

/-- The floating point number nearest to a quotient is the next whole number, although the quotient
is below it. -/
def carries (n d : Nat) : Bool := reachesNext (binaryPlaces (n / d)) n d

/-- The whole part of the floating point number nearest to a quotient. -/
def wholeOf (n d : Nat) : Nat := n / d + if carries n d then 1 else 0

theorem wholeOf_of_carries {n d : Nat} (h : carries n d = true) : wholeOf n d = n / d + 1 := by
  rw [wholeOf, if_pos h]

theorem wholeOf_of_not_carries {n d : Nat} (h : carries n d = false) : wholeOf n d = n / d := by
  rw [wholeOf, h]
  rfl

theorem wholePart_of_hasPlaces {p n d : Nat} (hd : 0 < d) (hbits : d < 2 ^ 53)
    (hn : n / d < 2 ^ 52) (h : HasPlaces p n d) : wholePart p n d = wholeOf n d := by
  by_cases hzero : n / d = 0
  · -- With so many places the divisor itself is too small to reach the next whole number.
    have hmissing : 1 ≤ d - n % d := Nat.sub_pos_of_lt (Nat.mod_lt n hd)
    have hnot {q : Nat} (hq : 52 ≤ q) : reachesNext q n d = false := by
      rw [reachesNext, decide_eq_false_iff_not, Nat.not_le]
      calc d
        _ < 2 ^ 53 := hbits
        _ ≤ 2 ^ (q + 1) := Nat.pow_le_pow_right (by decide) (by omega)
        _ ≤ (d - n % d) * 2 ^ (q + 1) := Nat.le_mul_of_pos_left _ hmissing
    have hplaces := h.none hzero
    have hfirst : binaryPlaces (n / d) = 52 := by rw [hzero, binaryPlaces, Nat.log2_zero]
    rw [wholePart_eq (by omega) hd, wholeOf, carries, hfirst, hnot (by omega), hnot (Nat.le_refl _)]
  · have hlog := (Nat.log2_lt hzero).mpr hn
    have hpos : 0 < binaryPlaces (n / d) := by
      unfold binaryPlaces
      omega
    rw [h.whole hzero, wholePart_eq hpos hd, wholeOf, carries]

theorem truncate_round {n d : Nat} (hd : 0 < d) (hbits : d < 2 ^ 53) (hn : n / d < 2 ^ 52)
    (negative : Bool) : (round negative n d).truncate =
      .ok (if negative then -(wholeOf n d : Int) else wholeOf n d) := by
  obtain ⟨p, places, htruncate⟩ := exists_truncate_round hd hn negative
  rw [htruncate, wholePart_of_hasPlaces hd hbits hn places]

theorem carries_of_dvd {n d : Nat} (hd : 0 < d) (h : d ∣ n) : carries n d = false := by
  rw [carries, reachesNext, decide_eq_false_iff_not, Nat.not_le, Nat.mod_eq_zero_of_dvd h,
    Nat.sub_zero]
  have htwo : 1 < 2 ^ (binaryPlaces (n / d) + 1) := Nat.one_lt_two_pow (Nat.succ_ne_zero _)
  exact (Nat.lt_mul_iff_one_lt_right hd).mpr htwo

end Binary64

end Attest
