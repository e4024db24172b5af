import Attest.Json.Reader
import Attest.Json.Writer
import Attest.Proofs.Number.Decimal

/-! Numbers of JSON are read back: a numeral is taken as a whole number if it has neither a fraction
nor an exponent, and so whole numbers and floating point numbers stay apart. -/

namespace Attest

theorem Numeral.chars_eq_cons {n : Numeral} (hn : n.Regular) :
    ∃ c cs, n.chars = c :: cs ∧
      if n.negative then c = '-' ∧ ∃ d ds, cs = d :: ds ∧ d.isDigit = true else c.isDigit = true := by
  obtain ⟨negative, whole, fraction, exponent⟩ := n
  obtain ⟨hne, hdigits⟩ := hn.whole
  cases whole with
  | nil => exact absurd rfl hne
  | cons d ds =>
    have hd := hdigits d (by simp)
    cases negative with
    | true => exact ⟨'-', _, rfl, rfl, d, _, rfl, hd⟩
    | false => exact ⟨d, _, rfl, hd⟩

theorem Numeral.exists_head {n : Numeral} (hn : n.Regular) :
    ∃ c cs, n.chars = c :: cs ∧ (c = '-' ∨ c.isDigit = true) := by
  obtain ⟨c, cs, hchars, hhead⟩ := chars_eq_cons hn
  split at hhead
  · exact ⟨c, cs, hchars, .inl hhead.1⟩
  · exact ⟨c, cs, hchars, .inr hhead⟩

namespace Json

variable {limit : Nat}

theorem ne_of_isDigit {c d : Char} (hc : c.isDigit = true) (hd : d.isDigit = false) : c ≠ d := by
  rintro rfl
  rw [hc] at hd
  cases hd

theorem scalar_numeral {n : Numeral} (hn : n.Regular) (rest : List Char) :
    scalar limit (n.chars ++ rest) = number limit (n.chars ++ rest) := by
  obtain ⟨c, cs, hchars, hhead⟩ := Numeral.chars_eq_cons hn
  rw [hchars]
  split at hhead
  · obtain ⟨rfl, d, ds, rfl, hd⟩ := hhead
    have hI := ne_of_isDigit hd (show 'I'.isDigit = false from rfl)
    simp [scalar, hI]
  · have hn := ne_of_isDigit hhead (show 'n'.isDigit = false from rfl)
    have ht := ne_of_isDigit hhead (show 't'.isDigit = false from rfl)
    have hf := ne_of_isDigit hhead (show 'f'.isDigit = false from rfl)
    have hN := ne_of_isDigit hhead (show 'N'.isDigit = false from rfl)
    have hI := ne_of_isDigit hhead (show 'I'.isDigit = false from rfl)
    have hminus := ne_of_isDigit hhead (show '-'.isDigit = false from rfl)
    simp [scalar, hn, ht, hf, hN, hI, hminus]

theorem number_numeral {n : Numeral} (hn : n.Regular) {rest : List Char}
    (hrest : EndsNumeral rest) :
    number limit (n.chars ++ rest) =
      if n.isFloat then .ok (.float n.toBinary64, rest)
      else if limit < n.whole.length then .error (.tooManyDigits n.whole.length)
      else .ok (.int n.toInt, rest) := by
  rw [number, Numeral.take_chars hn hrest]

def intNumeral (i : Int) : Numeral := ⟨decide (i < 0), Nat.toDigits 10 i.natAbs, none, none⟩

theorem regular_intNumeral (i : Int) : (intNumeral i).Regular := by
  refine ⟨isDigits_toDigits _, ?_, nofun, nofun⟩
  by_cases hzero : i.natAbs = 0
  · exact .inl (by simp [intNumeral, hzero])
  · exact .inr (head?_toDigits hzero)

theorem intChars_eq (i : Int) : intChars i = (intNumeral i).chars := by
  simp [intChars, intNumeral, Numeral.chars, Numeral.fractionChars, Numeral.exponentChars]

theorem toInt_intNumeral (i : Int) : (intNumeral i).toInt = i := by
  simp only [Numeral.toInt, intNumeral, natOfDigits_toDigits, decide_eq_true_eq]
  split <;> omega

/-- A whole number of at most `limit` digits is read as itself. -/
theorem scalar_intChars {i : Int} (hi : (Nat.toDigits 10 i.natAbs).length ≤ limit)
    {rest : List Char} (hrest : EndsNumeral rest) :
    scalar limit (intChars i ++ rest) = .ok (.int i, rest) := by
  rw [intChars_eq, scalar_numeral (regular_intNumeral i), number_numeral (regular_intNumeral i) hrest,
    toInt_intNumeral, if_neg (by simp [intNumeral, Numeral.isFloat]),
    if_neg (by simpa [intNumeral] using hi)]

theorem exists_numeral_floatChars (negative : Bool) (e : Fin 2047) (f : Fin (2 ^ 52)) :
    ∃ n : Numeral, n.Regular ∧ n.isFloat = true ∧ floatChars (.finite negative e f) = n.chars ∧
      n.toBinary64 = .finite negative e f := by
  obtain ⟨n, hn, hfloat, hchars, hvalue⟩ := Binary64.isFloatText_finiteText negative e f
  exact ⟨n, hn, hfloat, hchars.symm, hvalue⟩

theorem scalar_floatChars (x : Binary64) {rest : List Char} (hrest : EndsNumeral rest) :
    scalar limit (floatChars x ++ rest) = .ok (.float x, rest) := by
  cases x with
  | nan => rfl
  | infinity negative => cases negative <;> rfl
  | finite negative e f =>
    obtain ⟨n, hn, hfloat, hchars, hvalue⟩ := exists_numeral_floatChars negative e f
    rw [hchars, scalar_numeral hn, number_numeral hn hrest, if_pos hfloat, hvalue]

end Json

end Attest
