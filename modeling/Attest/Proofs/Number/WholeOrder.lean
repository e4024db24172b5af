import Attest.Proofs.Number.Truncation

/-! The order of whole parts. The whole part of a rounded quotient grows with the quotient, and it stands to
the whole parts of floating point numbers and whole numbers as the quotient stands to these, although it
is the next whole number where rounding reaches that. -/

namespace Attest.Binary64

theorem le_wholeOf (n d : Nat) : n / d ≤ wholeOf n d := Nat.le_add_right _ _

theorem wholeOf_le (n d : Nat) : wholeOf n d ≤ n / d + 1 := by
  unfold wholeOf
  split <;> omega

theorem wholeOf_of_dvd {n d : Nat} (hd : 0 < d) (h : d ∣ n) : wholeOf n d = n / d :=
  wholeOf_of_not_carries (carries_of_dvd hd h)

theorem wholeOf_mul_lt {n d : Nat} (hd : 0 < d) : wholeOf n d * d < n + d := by
  have hn := Nat.div_add_mod n d
  have hr := Nat.mod_lt n hd
  by_cases hdvd : d ∣ n
  · rw [wholeOf_of_dvd hd hdvd, Nat.div_mul_cancel hdvd]
    omega
  · have hpos : 0 < n % d := Nat.pos_of_ne_zero fun hzero => hdvd (Nat.dvd_of_mod_eq_zero hzero)
    calc wholeOf n d * d
      _ ≤ (n / d + 1) * d := Nat.mul_le_mul_right d (wholeOf_le n d)
      _ = d * (n / d) + d := by rw [Nat.add_mul, Nat.one_mul, Nat.mul_comm]
      _ < n + d := by omega

theorem lt_wholeOf_succ_mul {n d : Nat} (hd : 0 < d) : n < (wholeOf n d + 1) * d :=
  calc n
    _ < (n / d + 1) * d := by
      rw [Nat.mul_comm]
      exact Nat.lt_mul_div_succ n hd
    _ ≤ (wholeOf n d + 1) * d := Nat.mul_le_mul_right d (Nat.succ_le_succ (le_wholeOf n d))

theorem wholeOf_mono {n m d : Nat} (h : n ≤ m) : wholeOf n d ≤ wholeOf m d := by
  rcases Nat.lt_or_eq_of_le (Nat.div_le_div_right (c := d) h) with hless | hsame
  · calc wholeOf n d
      _ ≤ n / d + 1 := wholeOf_le n d
      _ ≤ m / d := hless
      _ ≤ wholeOf m d := le_wholeOf m d
  · have hmod : n % d ≤ m % d := by
      have hn := Nat.div_add_mod n d
      have hm := Nat.div_add_mod m d
      rw [hsame] at hn
      omega
    cases hcarries : carries n d with
    | false =>
      rw [wholeOf_of_not_carries hcarries, hsame]
      exact le_wholeOf m d
    | true =>
      have hreaches : carries m d = true := by
        unfold carries reachesNext at hcarries ⊢
        rw [decide_eq_true_eq] at hcarries ⊢
        rw [← hsame]
        exact Nat.le_trans (Nat.mul_le_mul_right _ (Nat.sub_le_sub_left hmod d)) hcarries
      rw [wholeOf_of_carries hcarries, wholeOf_of_carries hreaches]
      exact Nat.succ_le_succ (Nat.le_of_eq hsame)

/-- The units of a number are a multiple of each power of two that leaves at least 53 bits above it, up
to that of a whole number. -/
def IsSpaced (u : Nat) : Prop := ∀ j, j ≤ 1074 → 2 ^ (j + 52) ≤ u → 2 ^ j ∣ u

theorem isSpaced_units (x : Binary64) : IsSpaced x.units := fun _ _ h => two_pow_dvd_units h

theorem isSpaced_mul_unitsPerOne (n : Nat) : IsSpaced (n * unitsPerOne) := by
  intro j hj _
  obtain ⟨k, hk, hunit⟩ := exists_unitsPerOne_eq
  rw [hunit]
  exact Nat.dvd_mul_left_of_dvd (Nat.pow_dvd_pow 2 (by omega)) n

/-- Above a whole number there is room for the last binary place of a number up to the next whole number. -/
theorem IsSpaced.exists_add_le {u w : Nat} (h : IsSpaced u) (hw : w ≠ 0) (hbits : w < 2 ^ 52)
    (hwhole : u / unitsPerOne = w) :
    ∃ j, unitsPerOne = 2 ^ binaryPlaces w * 2 ^ j ∧ u + 2 ^ j ≤ (w + 1) * unitsPerOne := by
  have hlog := (Nat.log2_lt hw).mpr hbits
  obtain ⟨k, hk, hunit⟩ := exists_unitsPerOne_eq
  obtain ⟨j, hj⟩ : ∃ j, binaryPlaces w + j = k := ⟨k - binaryPlaces w, by unfold binaryPlaces; omega⟩
  have hsplit : unitsPerOne = 2 ^ binaryPlaces w * 2 ^ j := by rw [hunit, ← hj, Nat.pow_add]
  have hdvd : 2 ^ j ∣ u := by
    have hexponent : j + 52 = w.log2 + k := by
      clear hunit hsplit
      unfold binaryPlaces at hj
      omega
    apply h j (by omega)
    rw [hexponent, Nat.pow_add, ← hunit]
    calc 2 ^ w.log2 * unitsPerOne
      _ ≤ w * unitsPerOne := Nat.mul_le_mul_right _ (Nat.log2_self_le hw)
      _ ≤ u := by
        rw [← hwhole]
        exact Nat.div_mul_le_self u unitsPerOne
  have hnext : 2 ^ j ∣ (w + 1) * unitsPerOne := by
    rw [hsplit]
    exact Nat.dvd_mul_left_of_dvd (Nat.dvd_mul_left _ _) _
  have hless : u < (w + 1) * unitsPerOne := by
    rw [← hwhole, Nat.mul_comm]
    exact Nat.lt_mul_div_succ u unitsPerOne_pos
  refine ⟨j, hsplit, ?_⟩
  obtain ⟨a, rfl⟩ := hdvd
  obtain ⟨b, hb⟩ := hnext
  rw [hb] at hless ⊢
  exact Nat.mul_le_mul_left _ (Nat.lt_of_mul_lt_mul_left hless)

section Cross

variable {n d u : Nat} (hd : 0 < d)
include hd

/-- Where a number is less than one part above a quotient, its whole part is not above that of the quotient. -/
theorem div_le_wholeOf (h : u * d < (n + 1) * unitsPerOne) : u / unitsPerOne ≤ wholeOf n d := by
  refine Nat.le_trans ?_ (le_wholeOf n d)
  rw [Nat.le_div_iff_mul_le hd]
  apply Nat.le_of_lt_succ
  apply Nat.lt_of_mul_lt_mul_right (a := unitsPerOne)
  calc u / unitsPerOne * d * unitsPerOne
    _ = u / unitsPerOne * unitsPerOne * d := Nat.mul_right_comm _ _ _
    _ ≤ u * d := Nat.mul_le_mul_right d (Nat.div_mul_le_self u unitsPerOne)
    _ < (n + 1) * unitsPerOne := h

/-- Where a number is below a quotient that is whole, its whole part is below it too. -/
theorem div_lt_wholeOf_of_dvd (hdvd : d ∣ n) (h : u * d < n * unitsPerOne) :
    u / unitsPerOne < wholeOf n d := by
  rw [wholeOf_of_dvd hd hdvd, Nat.div_lt_iff_lt_mul unitsPerOne_pos]
  apply Nat.lt_of_mul_lt_mul_right (a := d)
  rwa [Nat.mul_right_comm, Nat.div_mul_cancel hdvd]

theorem ne_zero_of_carries (hbits : d < 2 ^ 53) (h : carries n d = true) : n / d ≠ 0 := by
  intro hzero
  rw [carries, reachesNext, decide_eq_true_eq, hzero, binaryPlaces, Nat.log2_zero] at h
  have hmissing : 1 ≤ d - n % d := Nat.sub_pos_of_lt (Nat.mod_lt n hd)
  have := Nat.le_mul_of_pos_left (2 ^ 53) hmissing
  omega

/-- A number that is less than one part below a quotient is as great as the next whole number, if rounding
reaches that: there is no room for a number in between. -/
theorem succ_le_div_of_carries (hspaced : IsSpaced u) (hbits : d < 2 ^ 53) (hn : n / d < 2 ^ 52)
    (hcarries : carries n d = true) (hlow : n / d ≤ u / unitsPerOne)
    (h : n * unitsPerOne < u * d + unitsPerOne) : n / d + 1 ≤ u / unitsPerOne := by
  apply Nat.lt_of_le_of_ne hlow
  intro hsame
  obtain ⟨j, hsplit, hnext⟩ :=
    hspaced.exists_add_le (ne_zero_of_carries hd hbits hcarries) hn hsame.symm
  have hmissing : 1 ≤ d - n % d := Nat.sub_pos_of_lt (Nat.mod_lt n hd)
  rw [carries, reachesNext, decide_eq_true_eq] at hcarries
  have hroom : d * 2 ^ j < (d - n % d + 1) * unitsPerOne := by
    have hproduct : (u + 2 ^ j) * d ≤ (n + (d - n % d)) * unitsPerOne := by
      calc (u + 2 ^ j) * d
        _ ≤ (n / d + 1) * unitsPerOne * d := Nat.mul_le_mul_right d hnext
        _ = (n / d + 1) * d * unitsPerOne := Nat.mul_right_comm _ _ _
        _ = (n + (d - n % d)) * unitsPerOne := by rw [div_succ_mul hd]
    rw [Nat.add_mul, Nat.add_mul, Nat.mul_comm (2 ^ j)] at hproduct
    rw [Nat.add_mul, Nat.one_mul]
    omega
  have hless : d < (d - n % d + 1) * 2 ^ binaryPlaces (n / d) := by
    rw [hsplit, ← Nat.mul_assoc] at hroom
    exact Nat.lt_of_mul_lt_mul_right hroom
  have hmore : (d - n % d + 1) * 2 ^ binaryPlaces (n / d) ≤
      (d - n % d) * 2 ^ (binaryPlaces (n / d) + 1) := by
    rw [Nat.pow_succ', ← Nat.mul_assoc]
    exact Nat.mul_le_mul_right _ (by omega)
  omega

/-- Where a quotient, which is not whole, is less than one part above a number, its whole part is not
above that of the number. -/
theorem wholeOf_le_div (hspaced : IsSpaced u) (hbits : d < 2 ^ 53) (hn : n / d < 2 ^ 52)
    (hdvd : ¬d ∣ n) (h : n * unitsPerOne < u * d + unitsPerOne) :
    wholeOf n d ≤ u / unitsPerOne := by
  have hpos : 0 < n % d := Nat.pos_of_ne_zero fun hzero => hdvd (Nat.dvd_of_mod_eq_zero hzero)
  have hlow : n / d ≤ u / unitsPerOne := by
    rw [Nat.le_div_iff_mul_le unitsPerOne_pos]
    apply Nat.le_of_mul_le_mul_right _ hd
    have hbelow : (n / d * d + 1) * unitsPerOne ≤ n * unitsPerOne := by
      apply Nat.mul_le_mul_right
      have := Nat.div_add_mod n d
      rw [Nat.mul_comm]
      omega
    rw [Nat.add_mul, Nat.one_mul] at hbelow
    rw [Nat.mul_right_comm]
    omega
  cases hcarries : carries n d with
  | false =>
    rw [wholeOf_of_not_carries hcarries]
    exact hlow
  | true =>
    rw [wholeOf_of_carries hcarries]
    exact succ_le_div_of_carries hd hspaced hbits hn hcarries hlow h

/-- Where a quotient is not above a number, its whole part is not either. -/
theorem wholeOf_le_div_of_le (hspaced : IsSpaced u) (hbits : d < 2 ^ 53) (hn : n / d < 2 ^ 52)
    (h : n * unitsPerOne ≤ u * d) : wholeOf n d ≤ u / unitsPerOne := by
  by_cases hdvd : d ∣ n
  · rw [wholeOf_of_dvd hd hdvd, Nat.le_div_iff_mul_le unitsPerOne_pos]
    apply Nat.le_of_mul_le_mul_right _ hd
    rw [Nat.mul_right_comm, Nat.div_mul_cancel hdvd]
    exact h
  · exact wholeOf_le_div hd hspaced hbits hn hdvd (Nat.lt_add_right_iff_pos.mpr unitsPerOne_pos |>
      Nat.lt_of_le_of_lt h)

end Cross

end Attest.Binary64
