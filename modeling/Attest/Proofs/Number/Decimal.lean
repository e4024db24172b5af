import Attest.Proofs.Number.Numeral
import Attest.Proofs.Number.Rounding
import Mathlib.Data.List.TakeWhile

/-! The texts of floating point numbers are read back. A decimal is rounded like the fraction that it
is, whatever the size of its exponent; its text is a numeral for the same decimal; and the decimal that
is written for a finite number is rounded to this number. -/

namespace Attest

namespace Binary64

theorem ofUnits_zero (negative : Bool) : ofUnits negative 0 = finite negative 0 0 := rfl

theorem ofUnits_of_large {n : Nat} (h : 2098 ≤ n.log2) (negative : Bool) :
    ofUnits negative n = infinity negative := by
  have hlarge : ¬n < 2 ^ 52 := by
    intro hn
    have := Nat.log2_lt (by rintro rfl; simp at h) |>.mpr hn
    omega
  rw [ofUnits, if_neg hlarge]
  exact dif_neg (by omega)

theorem round_zero (negative : Bool) (d : Nat) : round negative 0 d = finite negative 0 0 := by
  simp only [round, Nat.zero_mul, Nat.zero_div]
  rw [show roundHalfEven 0 _ = 0 by simp [roundHalfEven], Nat.zero_mul, ofUnits_zero]

theorem round_of_large {n : Nat} (h : 2098 ≤ (n * unitsPerOne).log2) (negative : Bool) :
    round negative n 1 = infinity negative := by
  simp only [round, Nat.div_one, Nat.one_mul]
  generalize n * unitsPerOne = scaled at h
  have hne : scaled ≠ 0 := by
    rintro rfl
    simp at h
  have hpow : 2 ^ scaled.log2 = 2 ^ 52 * 2 ^ (scaled.log2 - 52) := by
    rw [← Nat.pow_add, Nat.add_sub_cancel' (by omega)]
  have hquotient : 2 ^ 52 ≤ scaled / 2 ^ (scaled.log2 - 52) := by
    rw [Nat.le_div_iff_mul_le (Nat.two_pow_pos _), ← hpow]
    exact Nat.log2_self_le hne
  have hrounded : 2 ^ scaled.log2 ≤
      roundHalfEven scaled (2 ^ (scaled.log2 - 52)) * 2 ^ (scaled.log2 - 52) := by
    rw [hpow]
    exact Nat.mul_le_mul_right _ (Nat.le_trans hquotient (div_le_roundHalfEven _ _))
  refine ofUnits_of_large (Nat.le_trans h ?_) negative
  exact (Nat.le_log2 (by have := Nat.two_pow_pos scaled.log2; omega)).mpr hrounded

theorem round_of_small {n d : Nat} (h : 2 * (n * unitsPerOne) < d) (negative : Bool) :
    round negative n d = finite negative 0 0 := by
  have hzero : n * unitsPerOne / d = 0 := Nat.div_eq_of_lt (by omega)
  have hround : roundHalfEven (n * unitsPerOne) (d * 2 ^ (Nat.log2 0 - 52)) = 0 :=
    roundHalfEven_of_small (by simpa using h)
  simp only [round, hzero, hround, Nat.zero_mul, ofUnits_zero]

theorem two_pow_three_mul_le (k : Nat) : 2 ^ (3 * k) ≤ 10 ^ k := by
  rw [Nat.pow_mul]
  exact Nat.pow_le_pow_left (by decide) k

theorem log2_of_large_exponent {c k : Nat} (hc : c ≠ 0) (hk : 400 < k) :
    2098 ≤ (c * 10 ^ k * unitsPerOne).log2 := by
  obtain ⟨u, hu, hunit⟩ := exists_unitsPerOne_eq
  have hvalue : 2 ^ (3 * k + u) ≤ c * 10 ^ k * unitsPerOne := by
    rw [hunit, Nat.pow_add]
    refine Nat.mul_le_mul_right _ (Nat.le_trans (two_pow_three_mul_le k) ?_)
    exact Nat.le_mul_of_pos_left _ (Nat.pos_of_ne_zero hc)
  have hpos := Nat.two_pow_pos (3 * k + u)
  have hlog : 3 * k + u ≤ (c * 10 ^ k * unitsPerOne).log2 :=
    (Nat.le_log2 (by omega)).mpr hvalue
  omega

theorem small_of_small_exponent {c k : Nat} (hk : 400 + c.log2 < k) :
    2 * (c * unitsPerOne) < 10 ^ k := by
  obtain ⟨u, hu, hunit⟩ := exists_unitsPerOne_eq
  have hc : c < 2 ^ (c.log2 + 1) := Nat.lt_log2_self
  calc 2 * (c * unitsPerOne)
    _ < 2 * (2 ^ (c.log2 + 1) * 2 ^ u) := by
      rw [hunit]
      exact Nat.mul_lt_mul_of_pos_left
        (Nat.mul_lt_mul_of_pos_right hc (Nat.two_pow_pos u)) (by decide)
    _ = 2 ^ (c.log2 + 1 + u + 1) := by rw [← Nat.pow_add, Nat.pow_succ']
    _ ≤ 2 ^ (3 * k) := Nat.pow_le_pow_right (by decide) (by omega)
    _ ≤ 10 ^ k := two_pow_three_mul_le k

/-- A decimal is rounded like the fraction that it is, also where its exponent decides alone. -/
theorem ofDecimal_eq_round (negative : Bool) (c : Nat) (e : Int) :
    ofDecimal negative c e = round negative (c * 10 ^ e.toNat) (10 ^ (-e).toNat) := by
  unfold ofDecimal
  by_cases hc : c = 0
  · rw [if_pos hc, hc, Nat.zero_mul, round_zero]
  rw [if_neg hc]
  -- Where the exponent alone decides, no power is formed, and the rounding gives the same.
  by_cases hlarge : 400 < e
  · have hden : (-e).toNat = 0 := by omega
    rw [if_pos hlarge, hden, Nat.pow_zero,
      round_of_large (log2_of_large_exponent hc (by omega)) negative]
  rw [if_neg hlarge]
  by_cases hnonneg : 0 ≤ e
  · have hden : (-e).toNat = 0 := by omega
    rw [if_pos hnonneg, hden, Nat.pow_zero]
  have hnum : e.toNat = 0 := by omega
  rw [if_neg hnonneg, hnum, Nat.pow_zero, Nat.mul_one]
  by_cases hsmall : e + c.log2 < -400
  · rw [if_pos hsmall, round_of_small (small_of_small_exponent (by omega)) negative]
  · rw [if_neg hsmall]

/-- Zeros at the end of a coefficient count as well in the exponent. -/
theorem ofDecimal_mul_pow (negative : Bool) (c k : Nat) (e : Int) :
    ofDecimal negative (c * 10 ^ k) e = ofDecimal negative c (e + k) := by
  rw [ofDecimal_eq_round, ofDecimal_eq_round]
  refine round_congr negative (Nat.pow_pos (by decide)) (Nat.pow_pos (by decide)) ?_
  have hexponents : k + e.toNat + (-(e + k)).toNat = (e + k).toNat + (-e).toNat := by omega
  calc c * 10 ^ k * 10 ^ e.toNat * 10 ^ (-(e + k)).toNat
    _ = c * 10 ^ (k + e.toNat + (-(e + k)).toNat) := by
      rw [Nat.pow_add, Nat.pow_add, Nat.mul_assoc, Nat.mul_assoc, Nat.mul_assoc]
    _ = c * 10 ^ (e + k).toNat * 10 ^ (-e).toNat := by
      rw [hexponents, Nat.pow_add, Nat.mul_assoc]

/-- The decimal of all digits of a finite number is this number. -/
theorem toBinary64_exactDecimal (negative : Bool) (e : Fin 2047) (f : Fin (2 ^ 52)) :
    (exactDecimal (finite negative e f)).toBinary64 negative = finite negative e f := by
  obtain ⟨k, hk, hunit⟩ := exists_unitsPerOne_eq
  have hdecimal : exactDecimal (finite negative e f) =
      ⟨(finite negative e f).units * 5 ^ k, -(k : Int)⟩ := by
    rw [hk]
    rfl
  have hnum : (-(k : Int)).toNat = 0 := by omega
  rw [hdecimal]
  calc ofDecimal negative ((finite negative e f).units * 5 ^ k) (-(k : Int))
    _ = round negative ((finite negative e f).units * 5 ^ k) (10 ^ k) := by
      rw [ofDecimal_eq_round, Int.neg_neg, Int.toNat_natCast, hnum, Nat.pow_zero, Nat.mul_one]
    _ = round negative (finite negative e f).units unitsPerOne := by
      refine round_congr negative (Nat.pow_pos (by decide)) unitsPerOne_pos ?_
      rw [hunit, Nat.mul_assoc, ← Nat.mul_pow]
    _ = finite negative e f := round_units negative e f

/-- The decimal that is written for a finite number is rounded to this number. -/
theorem toBinary64_shortest (negative : Bool) (e : Fin 2047) (f : Fin (2 ^ 52)) :
    (shortest (finite negative e f)).toBinary64 negative = finite negative e f := by
  rw [shortest, show (finite negative e f).isNegative = negative from rfl]
  cases hfound : (candidates (finite negative e f)).find?
      fun d => d.toBinary64 negative == finite negative e f with
  | none => exact toBinary64_exactDecimal negative e f
  | some d =>
    have hread := List.find?_some hfound
    rw [beq_iff_eq] at hread
    exact hread

/-- The digits that count, and the zeros after them, are the digits of the coefficient. -/
theorem significantDigits_append (c : Nat) :
    ∃ zeros, significantDigits c ++ List.replicate zeros '0' = Nat.toDigits 10 c := by
  refine ⟨((Nat.toDigits 10 c).reverse.takeWhile (· == '0')).length, ?_⟩
  have hzeros : (Nat.toDigits 10 c).reverse.takeWhile (· == '0') =
      List.replicate ((Nat.toDigits 10 c).reverse.takeWhile (· == '0')).length '0' := by
    refine List.eq_replicate_of_mem fun d hd => ?_
    simpa using List.mem_takeWhile_imp hd
  have hsplit := List.takeWhile_append_dropWhile (p := (· == '0')) (l := (Nat.toDigits 10 c).reverse)
  rw [significantDigits, ← List.reverse_inj, List.reverse_append, List.reverse_reverse,
    List.reverse_replicate, ← hzeros, hsplit]

/-- The digits that count of a coefficient other than zero: there are some, and the first one is not
zero. -/
theorem isDigits_significantDigits {c : Nat} (hc : c ≠ 0) :
    IsDigits (significantDigits c) ∧ (significantDigits c).head? ≠ some '0' := by
  obtain ⟨zeros, hdigits⟩ := significantDigits_append c
  have hhead := head?_toDigits hc
  have hall := (isDigits_toDigits c).2
  have hne : significantDigits c ≠ [] := by
    intro hnil
    rw [hnil, List.nil_append] at hdigits
    cases zeros with
    | zero => exact Nat.toDigits_ne_nil hdigits.symm
    | succ n => exact hhead (by rw [← hdigits]; rfl)
  rw [← hdigits] at hhead hall
  obtain ⟨d, ds, hds⟩ := List.exists_cons_of_ne_nil hne
  rw [hds] at hhead hall ⊢
  exact ⟨⟨by simp, fun x hx => hall x (List.mem_append_left _ hx)⟩, hhead⟩

end Binary64

/-- A text is that of a numeral with a fraction or an exponent, which is read as `x`. -/
def IsFloatText (cs : List Char) (x : Binary64) : Prop :=
  ∃ n : Numeral, n.Regular ∧ n.isFloat = true ∧ n.chars = cs ∧ n.toBinary64 = x

namespace Binary64

/-- The text of the sign of a number. -/
def signChars (negative : Bool) : List Char := if negative then ['-'] else []

theorem isDigits_noExponent : ∀ e ∈ (none : Option (Bool × List Char)), IsDigits e.2 := nofun

theorem isDigits_zero : IsDigits ['0'] := ⟨by simp, by simp⟩

theorem isFloatText_before {ds : List Char} (hds : IsDigits ds) (negative : Bool) {point : Int}
    (hpoint : point ≤ 0) :
    IsFloatText (signChars negative ++ positional ds point)
      (ofDecimal negative (natOfDigits ds) (point - ds.length)) := by
  refine ⟨⟨negative, ['0'], some (List.replicate (-point).toNat '0' ++ ds), none⟩,
    ⟨isDigits_zero, .inl rfl, ?_, isDigits_noExponent⟩, rfl, ?_, ?_⟩
  · rintro _ ⟨⟩
    refine ⟨by simp [hds.1], fun c hc => ?_⟩
    exact (List.mem_append.mp hc).elim isDigit_of_mem_zeros (hds.2 c)
  · simp [Numeral.chars, Numeral.fractionChars, Numeral.exponentChars, positional, hpoint, signChars]
  · have hvalue : natOfDigits (['0'] ++ (List.replicate (-point).toNat '0' ++ ds)) =
        natOfDigits ds := by
      rw [natOfDigits_append, natOfDigits_append, natOfDigits_zeros,
        show natOfDigits ['0'] = 0 by rfl, Nat.zero_mul, Nat.zero_mul, Nat.zero_add, Nat.zero_add]
    simp only [Numeral.toBinary64, Option.getD_some, hvalue]
    congr 1
    simp
    omega

theorem isFloatText_inside {ds : List Char} (hds : IsDigits ds) (hhead : ds.head? ≠ some '0')
    (negative : Bool) {point : Int} (hpoint : ¬point ≤ 0) (hinside : point.toNat < ds.length) :
    IsFloatText (signChars negative ++ positional ds point)
      (ofDecimal negative (natOfDigits ds) (point - ds.length)) := by
  have htake : ds.take point.toNat ≠ [] := by
    obtain ⟨d, rest, rfl⟩ := List.exists_cons_of_ne_nil hds.1
    obtain ⟨k, hk⟩ : ∃ k, point.toNat = k + 1 := ⟨point.toNat - 1, by omega⟩
    simp [hk]
  refine ⟨⟨negative, ds.take point.toNat, some (ds.drop point.toNat), none⟩,
    ⟨⟨htake, fun c hc => hds.2 c (List.mem_of_mem_take hc)⟩, .inr ?_, ?_, isDigits_noExponent⟩,
    rfl, ?_, ?_⟩
  · rwa [List.head?_take, if_neg (by omega)]
  · rintro _ ⟨⟩
    exact ⟨by simp; omega, fun c hc => hds.2 c (List.mem_of_mem_drop hc)⟩
  · simp [Numeral.chars, Numeral.fractionChars, Numeral.exponentChars, positional, hpoint, hinside,
      signChars]
  · simp only [Numeral.toBinary64, Option.getD_some, List.take_append_drop]
    congr 1
    simp
    omega

theorem isFloatText_after {ds : List Char} (hds : IsDigits ds) (hhead : ds.head? ≠ some '0')
    (negative : Bool) {point : Int} (hpoint : ¬point ≤ 0) (hafter : ¬point.toNat < ds.length) :
    IsFloatText (signChars negative ++ positional ds point)
      (ofDecimal negative (natOfDigits ds) (point - ds.length)) := by
  refine ⟨⟨negative, ds ++ List.replicate (point.toNat - ds.length) '0', some ['0'], none⟩,
    ⟨hds.append fun _ => isDigit_of_mem_zeros, .inr ?_, ?_, isDigits_noExponent⟩, rfl, ?_, ?_⟩
  · obtain ⟨d, rest, rfl⟩ := List.exists_cons_of_ne_nil hds.1
    exact hhead
  · rintro _ ⟨⟩
    exact isDigits_zero
  · simp [Numeral.chars, Numeral.fractionChars, Numeral.exponentChars, positional, hpoint, hafter,
      signChars]
  · have hvalue : natOfDigits (ds ++ List.replicate (point.toNat - ds.length) '0' ++ ['0']) =
        natOfDigits ds * 10 ^ (point.toNat - ds.length + 1) := by
      rw [natOfDigits_append, natOfDigits_append, natOfDigits_zeros,
        show natOfDigits ['0'] = 0 by rfl, Nat.add_zero, Nat.add_zero, List.length_replicate,
        List.length_singleton, Nat.mul_assoc, ← Nat.pow_add]
    simp only [Numeral.toBinary64, Option.getD_some, hvalue]
    rw [ofDecimal_mul_pow]
    congr 1
    simp
    omega

/-- Digits with a decimal point are the numeral for the digits as a whole number, divided by a power
of ten for the digits after the point. -/
theorem isFloatText_positional {ds : List Char} (hds : IsDigits ds) (hhead : ds.head? ≠ some '0')
    (negative : Bool) (point : Int) :
    IsFloatText (signChars negative ++ positional ds point)
      (ofDecimal negative (natOfDigits ds) (point - ds.length)) := by
  by_cases hpoint : point ≤ 0
  · exact isFloatText_before hds negative hpoint
  by_cases hinside : point.toNat < ds.length
  · exact isFloatText_inside hds hhead negative hpoint hinside
  · exact isFloatText_after hds hhead negative hpoint hinside

theorem natOfDigits_scientific_exponent (n : Nat) :
    natOfDigits (List.replicate (2 - (Nat.toDigits 10 n).length) '0' ++ Nat.toDigits 10 n) = n := by
  rw [natOfDigits_append, natOfDigits_zeros, Nat.zero_mul, Nat.zero_add, natOfDigits_toDigits]

/-- Digits in scientific notation are the numeral for the digits as a whole number, with an exponent
that is smaller by the number of digits after the point. -/
theorem isFloatText_scientific {ds : List Char} (hds : IsDigits ds) (hhead : ds.head? ≠ some '0')
    (negative : Bool) (exponent : Int) :
    IsFloatText (signChars negative ++ scientific ds exponent)
      (ofDecimal negative (natOfDigits ds) (exponent + 1 - ds.length)) := by
  obtain ⟨d, rest, rfl⟩ := List.exists_cons_of_ne_nil hds.1
  let magnitude := Nat.toDigits 10 exponent.natAbs
  let fraction := if rest = [] then none else some rest
  have hmagnitude : IsDigits (List.replicate (2 - magnitude.length) '0' ++ magnitude) :=
    ⟨by simp [magnitude, Nat.toDigits_ne_nil], fun c hc =>
      (List.mem_append.mp hc).elim isDigit_of_mem_zeros ((isDigits_toDigits _).2 c)⟩
  have hexponent : (if decide (exponent < 0) = true then -(exponent.natAbs : Int)
      else exponent.natAbs) = exponent := by
    by_cases h : exponent < 0
    · simp only [h, decide_true, if_true]
      omega
    · simp only [h, decide_false, Bool.false_eq_true, if_false]
      omega
  refine ⟨⟨negative, [d], fraction, some (decide (exponent < 0),
      List.replicate (2 - magnitude.length) '0' ++ magnitude)⟩,
    ⟨⟨by simp, by simpa using hds.2 d (by simp)⟩, .inr (by simpa using hhead), ?_, ?_⟩, ?_, ?_, ?_⟩
  · intro fs hfs
    cases rest with
    | nil => cases hfs
    | cons r rs =>
      cases hfs
      exact ⟨by simp, fun c hc => hds.2 c (by simp [List.mem_cons.mp hc])⟩
  · rintro _ ⟨⟩
    exact hmagnitude
  · cases rest <;> rfl
  · cases rest <;> by_cases h : exponent < 0 <;>
      simp [Numeral.chars, Numeral.fractionChars, Numeral.exponentChars, scientific, signChars,
        fraction, magnitude, h]
  · simp only [Numeral.toBinary64, magnitude, natOfDigits_scientific_exponent, hexponent]
    cases rest with
    | nil =>
      congr 1
      simp [fraction]
    | cons r rs =>
      congr 1
      show exponent - ((r :: rs).length : Int) = _
      simp only [List.length_cons]
      omega

/-- The text of a decimal is read as the number that the decimal is rounded to. -/
theorem isFloatText_decimal (negative : Bool) (d : Decimal) :
    IsFloatText (signChars negative ++ d.text) (d.toBinary64 negative) := by
  obtain ⟨c, e⟩ := d
  by_cases hc : c = 0
  · subst hc
    refine ⟨⟨negative, ['0'], some ['0'], none⟩,
      ⟨isDigits_zero, .inl rfl, ?_, isDigits_noExponent⟩, rfl, ?_, rfl⟩
    · rintro _ ⟨⟩
      exact isDigits_zero
    · simp [Numeral.chars, Numeral.fractionChars, Numeral.exponentChars, Decimal.text, signChars]
  · obtain ⟨hdigits, hhead⟩ := isDigits_significantDigits hc
    obtain ⟨zeros, hzeros⟩ := significantDigits_append c
    have hlength : (Nat.toDigits 10 c).length = (significantDigits c).length + zeros := by
      rw [← hzeros, List.length_append, List.length_replicate]
    have hvalue : natOfDigits (significantDigits c) * 10 ^ zeros = c := by
      have := natOfDigits_toDigits c
      rwa [← hzeros, natOfDigits_append, natOfDigits_zeros, Nat.add_zero, List.length_replicate]
        at this
    have hread (x : Int) (hx : x = e + zeros) : ofDecimal negative (natOfDigits (significantDigits c))
        x = Decimal.toBinary64 negative ⟨c, e⟩ := by
      rw [hx, ← ofDecimal_mul_pow, hvalue]
      rfl
    simp only [Decimal.text, hc, if_false]
    split
    · have h := isFloatText_positional hdigits hhead negative
        ((Nat.toDigits 10 c).length - 1 + e + 1)
      rwa [hread _ (by omega)] at h
    · have h := isFloatText_scientific hdigits hhead negative
        ((Nat.toDigits 10 c).length - 1 + e)
      rwa [hread _ (by omega)] at h

/-- The text of a finite number is read as this number. -/
theorem isFloatText_finiteText (negative : Bool) (e : Fin 2047) (f : Fin (2 ^ 52)) :
    IsFloatText (finite negative e f).finiteText (finite negative e f) := by
  have h := isFloatText_decimal negative (shortest (finite negative e f))
  rw [toBinary64_shortest] at h
  exact h

end Binary64

end Attest
