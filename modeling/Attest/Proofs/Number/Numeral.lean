import Attest.Number.Text
import Mathlib.Data.List.TakeDrop

/-! Numerals as texts. A numeral whose parts have the digits that they need is written, and read again
from any text that begins with it and does not go on like a numeral. -/

namespace Attest

/-- Digits, at least one. -/
def IsDigits (cs : List Char) : Prop := cs ≠ [] ∧ ∀ c ∈ cs, c.isDigit = true

theorem isDigits_toDigits (n : Nat) : IsDigits (Nat.toDigits 10 n) :=
  ⟨Nat.toDigits_ne_nil, fun _ hc => Nat.isDigit_of_mem_toDigits (by decide) (by decide) hc⟩

theorem IsDigits.append {cs ds : List Char} (hc : IsDigits cs) (hd : ∀ d ∈ ds, d.isDigit = true) :
    IsDigits (cs ++ ds) := by
  refine ⟨by simp [hc.1], fun c hmem => ?_⟩
  rcases List.mem_append.mp hmem with hmem | hmem
  · exact hc.2 c hmem
  · exact hd c hmem

theorem isDigit_of_mem_zeros {n : Nat} {c : Char} (h : c ∈ List.replicate n '0') :
    c.isDigit = true := by
  rw [(List.mem_replicate.mp h).2]
  rfl

theorem natOfDigits_toDigits (n : Nat) : natOfDigits (Nat.toDigits 10 n) = n :=
  Nat.ofDigitChars_ten_toDigits

theorem natOfDigits_append (cs ds : List Char) :
    natOfDigits (cs ++ ds) = natOfDigits cs * 10 ^ ds.length + natOfDigits ds := by
  unfold natOfDigits
  rw [Nat.ofDigitChars_append, Nat.ofDigitChars_eq_ofDigitChars_zero, Nat.mul_comm]

theorem natOfDigits_zeros (n : Nat) : natOfDigits (List.replicate n '0') = 0 := by
  unfold natOfDigits
  rw [Nat.ofDigitChars_replicate_zero, Nat.mul_zero]

theorem natOfDigits_lt {cs : List Char} (h : ∀ c ∈ cs, c.isDigit = true) : natOfDigits cs < 10 ^ cs.length := by
  induction cs with
  | nil => exact Nat.one_pos
  | cons c cs ih =>
    obtain ⟨hc, hcs⟩ := List.forall_mem_cons.mp h
    have hvalue : natOfDigits [c] ≤ 9 := by
      simp only [Char.isDigit, Bool.and_eq_true, decide_eq_true_eq] at hc
      have hhigh : c.toNat ≤ 57 := hc.2
      have hsub : natOfDigits [c] = c.toNat - 48 := by simp [natOfDigits, Nat.ofDigitChars_cons]
      omega
    calc natOfDigits (c :: cs)
      _ = natOfDigits [c] * 10 ^ cs.length + natOfDigits cs := natOfDigits_append [c] cs
      _ < 9 * 10 ^ cs.length + 10 ^ cs.length :=
        Nat.add_lt_add_of_le_of_lt (Nat.mul_le_mul_right _ hvalue) (ih hcs)
      _ = 10 ^ (c :: cs).length := by rw [List.length_cons, Nat.pow_succ]; omega

theorem head?_toDigits {n : Nat} (h : n ≠ 0) : (Nat.toDigits 10 n).head? ≠ some '0' := by
  induction n using Nat.strongRecOn with
  | ind n ih =>
    by_cases hsmall : n < 10
    · rw [Nat.toDigits_of_lt_base hsmall]
      have hdigit : ∀ d : Fin 10, d.val ≠ 0 → [d.val.digitChar].head? ≠ some '0' := by decide
      exact hdigit ⟨n, hsmall⟩ h
    · obtain ⟨d, ds, hds⟩ : ∃ d ds, Nat.toDigits 10 (n / 10) = d :: ds :=
        List.exists_cons_of_ne_nil Nat.toDigits_ne_nil
      have hhead := ih (n / 10) (by omega) (by omega)
      rw [Nat.toDigits_of_base_le (by decide) (by omega), hds]
      rwa [hds] at hhead

/-- A text does not go on like a numeral. -/
def EndsNumeral (cs : List Char) : Prop :=
  ∀ c ∈ cs.head?, c.isDigit = false ∧ c ≠ '.' ∧ c ≠ 'e' ∧ c ≠ 'E'

theorem endsNumeral_nil : EndsNumeral [] := nofun

theorem endsNumeral_cons {c : Char} (cs : List Char) (hdigit : c.isDigit = false) (hpoint : c ≠ '.')
    (hlower : c ≠ 'e') (hupper : c ≠ 'E') : EndsNumeral (c :: cs) := by
  intro d hd
  obtain rfl : c = d := by simpa using hd
  exact ⟨hdigit, hpoint, hlower, hupper⟩

namespace Numeral

/-- The parts of a numeral have the digits that they need, and no needless zeros at the start. -/
structure Regular (n : Numeral) : Prop where
  whole : IsDigits n.whole
  noZeros : n.whole = ['0'] ∨ n.whole.head? ≠ some '0'
  fraction : ∀ ds ∈ n.fraction, IsDigits ds
  exponent : ∀ e ∈ n.exponent, IsDigits e.2

def fractionChars : Option (List Char) → List Char
  | none => []
  | some ds => '.' :: ds

def exponentChars : Option (Bool × List Char) → List Char
  | none => []
  | some (minus, ds) => 'e' :: (if minus then '-' else '+') :: ds

def chars (n : Numeral) : List Char :=
  (if n.negative then ['-'] else []) ++
    (n.whole ++ (fractionChars n.fraction ++ exponentChars n.exponent))

theorem span_digits {ds rest : List Char} (hds : ∀ d ∈ ds, d.isDigit = true)
    (hrest : ∀ c ∈ rest.head?, c.isDigit = false) :
    (ds ++ rest).span Char.isDigit = (ds, rest) := by
  rw [List.span_eq_takeWhile_dropWhile, List.takeWhile_append_of_pos hds,
    List.dropWhile_append_of_pos hds]
  cases rest with
  | nil => simp
  | cons c rest => simp [hrest c rfl]

theorem takeWhole_append {ds rest : List Char} (hds : IsDigits ds)
    (hzeros : ds = ['0'] ∨ ds.head? ≠ some '0') (hrest : ∀ c ∈ rest.head?, c.isDigit = false) :
    takeWhole (ds ++ rest) = some (ds, rest) := by
  obtain ⟨hne, hdigits⟩ := hds
  cases ds with
  | nil => exact absurd rfl hne
  | cons d ds =>
    rcases hzeros with hzero | hhead
    · obtain ⟨rfl, rfl⟩ := List.cons.inj hzero
      rfl
    · have hd : d ≠ '0' := by simpa using hhead
      rw [List.cons_append, takeWhole, if_pos (hdigits d (by simp)), ← List.cons_append,
        span_digits hdigits hrest]
      exact fun h => hd h

theorem takeFraction_append {fraction : Option (List Char)} {rest : List Char}
    (hfraction : ∀ ds ∈ fraction, IsDigits ds)
    (hrest : ∀ c ∈ rest.head?, c.isDigit = false ∧ c ≠ '.') :
    takeFraction (fractionChars fraction ++ rest) = (fraction, rest) := by
  cases fraction with
  | none =>
    cases rest with
    | nil => rfl
    | cons c rest =>
      have hpoint := (hrest c rfl).2
      unfold takeFraction fractionChars
      split
      · rename_i heq
        exact absurd (List.cons.inj heq).1 hpoint
      · rfl
  | some ds =>
    obtain ⟨hne, hdigits⟩ := hfraction ds rfl
    cases ds with
    | nil => exact absurd rfl hne
    | cons d ds =>
      show takeFraction ('.' :: d :: (ds ++ rest)) = _
      rw [takeFraction, if_pos (hdigits d (by simp)), ← List.cons_append,
        span_digits hdigits fun c hc => (hrest c hc).1]

theorem takeExponent_append {exponent : Option (Bool × List Char)} {rest : List Char}
    (hexponent : ∀ e ∈ exponent, IsDigits e.2) (hrest : EndsNumeral rest) :
    takeExponent (exponentChars exponent ++ rest) = (exponent, rest) := by
  cases exponent with
  | none =>
    cases rest with
    | nil => rfl
    | cons c rest =>
      obtain ⟨-, -, hlower, hupper⟩ := hrest c rfl
      show takeExponent (c :: rest) = _
      rw [takeExponent, if_neg (by simp [hlower, hupper])]
  | some e =>
    obtain ⟨minus, ds⟩ := e
    obtain ⟨hne, hdigits⟩ := hexponent _ rfl
    have hsign : takeSign ((if minus then '-' else '+') :: (ds ++ rest)) = (minus, ds ++ rest) := by
      cases minus <;> rfl
    show takeExponent ('e' :: (if minus then '-' else '+') :: (ds ++ rest)) = _
    rw [takeExponent, if_pos (by decide), hsign]
    simp only [span_digits hdigits fun c hc => (hrest c hc).1]

theorem exponentChars_head (exponent : Option (Bool × List Char)) {rest : List Char}
    (hrest : EndsNumeral rest) :
    ∀ c ∈ (exponentChars exponent ++ rest).head?, c.isDigit = false ∧ c ≠ '.' := by
  intro c hc
  cases exponent with
  | none => exact ⟨(hrest c hc).1, (hrest c hc).2.1⟩
  | some e =>
    obtain rfl : 'e' = c := by simpa [exponentChars] using hc
    decide

theorem fractionChars_head (fraction : Option (List Char)) {rest : List Char}
    (hrest : ∀ c ∈ rest.head?, c.isDigit = false) :
    ∀ c ∈ (fractionChars fraction ++ rest).head?, c.isDigit = false := by
  intro c hc
  cases fraction with
  | none => exact hrest c hc
  | some ds =>
    obtain rfl : '.' = c := by simpa [fractionChars] using hc
    rfl

/-- A numeral at the start of a text is read. -/
theorem take_chars {n : Numeral} (hn : n.Regular) {rest : List Char} (hrest : EndsNumeral rest) :
    take (n.chars ++ rest) = some (n, rest) := by
  obtain ⟨negative, whole, fraction, exponent⟩ := n
  have hexponent := exponentChars_head exponent hrest
  have hwhole := takeWhole_append hn.whole hn.noZeros
    (fractionChars_head fraction fun c hc => (hexponent c hc).1)
  have hfraction := takeFraction_append hn.fraction hexponent
  simp only at hwhole hfraction
  cases negative with
  | true =>
    simp [take, chars, hwhole, hfraction, takeExponent_append hn.exponent hrest]
  | false =>
    obtain ⟨hne, hdigits⟩ := hn.whole
    cases whole with
    | nil => exact absurd rfl hne
    | cons d ds =>
      have hd : d ≠ '-' := by
        rintro rfl
        exact absurd (hdigits '-' (by simp)) (by decide)
      rw [List.cons_append] at hwhole
      simp [take, chars, hd, hwhole, hfraction, takeExponent_append hn.exponent hrest]

end Numeral

end Attest
