import Attest.Json.Reader
import Attest.Json.Writer
import Attest.Proofs.Text.Filled
import Attest.Proofs.Text.Utf8
import Mathlib.Tactic.SplitIfs

/-! Strings of JSON are read back: each character is read as the units that its escape gives or as one
unit of its own, and the units give the characters again, pairs of surrogates included. -/

namespace Attest

namespace Text

theorem lt_of_mem_utf16Units {c : Char} {n : Nat} (h : n ∈ utf16Units c) : n < 0x10000 := by
  have hbound := toNat_lt c
  unfold utf16Units at h
  simp only at h
  generalize c.toNat = m at h hbound
  split at h
  · rwa [List.mem_singleton.mp h]
  · simp only [List.mem_cons, List.not_mem_nil, or_false] at h
    omega

end Text

namespace Text.Utf16

theorem toNat_not_surrogate (c : Char) : isHighSurrogate c.toNat = false := by
  rcases c.valid with h | ⟨h, -⟩
  · have hlow : c.toNat < 0xd800 := h
    simp [isHighSurrogate]
    omega
  · have hhigh : 0xdfff < c.toNat := h
    simp [isHighSurrogate]
    omega

theorem decodeUnits_character (c : Char) (read : List Char) (rest : List Nat) :
    decodeUnits read none (c.toNat :: rest) = decodeUnits (c :: read) none rest := by
  simp only [decodeUnits, toNat_not_surrogate, Bool.false_eq_true, if_false, characterAt_toNat]

theorem decodeUnits_pair {high low : Nat} (hhigh : isHighSurrogate high = true)
    (hlow : isLowSurrogate low = true) (read : List Char) (rest : List Nat) :
    decodeUnits read none (high :: low :: rest) =
      decodeUnits (characterAt (joinSurrogates high low) :: read) none rest := by
  rw [decodeUnits]
  simp only [hhigh, if_true]
  rw [decodeUnits]
  simp only [hlow, if_true]

theorem joinSurrogates_halves {n : Nat} (h : 0x10000 ≤ n) :
    joinSurrogates (0xd800 + (n - 0x10000) / 0x400) (0xdc00 + (n - 0x10000) % 0x400) = n := by
  unfold joinSurrogates
  omega

theorem decodeUnits_utf16Units (c : Char) (read : List Char) (rest : List Nat) :
    decodeUnits read none (utf16Units c ++ rest) = decodeUnits (c :: read) none rest := by
  have hbound := toNat_lt c
  have hc := characterAt_toNat c
  unfold utf16Units
  simp only
  split
  · exact decodeUnits_character c read rest
  · rename_i hpair
    generalize c.toNat = n at hbound hc hpair ⊢
    have hhigh : isHighSurrogate (0xd800 + (n - 0x10000) / 0x400) = true := by
      simp [isHighSurrogate]
      omega
    have hlow : isLowSurrogate (0xdc00 + (n - 0x10000) % 0x400) = true := by
      simp [isLowSurrogate]
      omega
    rw [List.cons_append, List.singleton_append, decodeUnits_pair hhigh hlow,
      joinSurrogates_halves (by omega), hc]

end Text.Utf16

namespace Json

theorem unit?_hex {n : Nat} (h : n < 0x10000) :
    unit? (Text.hexDigit (n / 0x1000)) (Text.hexDigit (n / 0x100 % 0x10))
      (Text.hexDigit (n / 0x10 % 0x10)) (Text.hexDigit (n % 0x10)) = some n := by
  rw [unit?, Text.hexValue?_hexDigit (by omega), Text.hexValue?_hexDigit (by omega),
    Text.hexValue?_hexDigit (by omega), Text.hexValue?_hexDigit (by omega)]
  show some _ = some n
  congr 1
  omega

theorem units_escapeUnit (start rest : List Char) (read : List Nat) (e : Char) {n : Nat}
    (h : n < 0x10000) :
    units start read (escapeUnit n ++ e :: rest) = units start (n :: read) (e :: rest) := by
  rw [escapeUnit, Text.hex_four h]
  simp only [List.cons_append, List.nil_append, units, unit?_hex h]

theorem units_letter (start rest : List Char) (read : List Nat) {c d : Char}
    (h : unescape? c = some d) :
    units start read ('\\' :: c :: rest) = units start (d.toNat :: read) rest := by
  have hu : c ≠ 'u' := by
    rintro rfl
    cases h
  rw [units]
  · simp only [hu, if_false, h]
  · rintro _ _ _ _ _ _ rfl
    exact absurd rfl hu

theorem units_plain (start rest : List Char) (read : List Nat) {c : Char} (hquote : c ≠ '"')
    (hbackslash : c ≠ '\\') (hcontrol : 0x20 ≤ c.toNat) :
    units start read (c :: rest) = units start (c.toNat :: read) rest := by
  simp [units, hbackslash, Nat.not_lt.mpr hcontrol]

theorem units_utf16Units (start rest : List Char) (read : List Nat) (c e : Char) :
    units start read ((Text.utf16Units c).flatMap escapeUnit ++ e :: rest) =
      units start ((Text.utf16Units c).reverse ++ read) (e :: rest) := by
  have hbound := Text.toNat_lt c
  unfold Text.utf16Units
  simp only
  split
  · rename_i hone
    simp only [List.flatMap_cons, List.flatMap_nil, List.append_nil]
    rw [units_escapeUnit _ _ _ _ hone]
    rfl
  · rename_i hpair
    generalize c.toNat = n at hbound hpair ⊢
    have hhigh : 0xd800 + (n - 0x10000) / 0x400 < 0x10000 := by omega
    have hlow : 0xdc00 + (n - 0x10000) % 0x400 < 0x10000 := by omega
    generalize 0xd800 + (n - 0x10000) / 0x400 = high at hhigh ⊢
    generalize 0xdc00 + (n - 0x10000) % 0x400 = low at hlow ⊢
    simp only [List.flatMap_cons, List.flatMap_nil, List.append_nil, List.append_assoc]
    rw [show escapeUnit low ++ e :: rest = '\\' :: ('u' :: Text.hex 4 low ++ e :: rest) by rfl,
      units_escapeUnit _ _ _ _ hhigh]
    exact units_escapeUnit _ _ _ _ hlow

/-- A character stands in a string as a backslash and a letter, as the escapes of its units, or as it
is. -/
inductive Escaped (c : Char) : List Char → Prop
  | letter {d : Char} (h : unescape? d = some c) : Escaped c ['\\', d]
  | units : Escaped c ((Text.utf16Units c).flatMap escapeUnit)
  | plain (hquote : c ≠ '"') (hbackslash : c ≠ '\\') (hcontrol : 0x20 ≤ c.toNat) : Escaped c [c]

theorem escaped_escape (asciiOnly : Bool) (c : Char) : Escaped c (escape asciiOnly c) := by
  unfold escape
  split_ifs with hquote hbackslash hline hreturn htab hfeed hback hunits
  · subst hquote
    exact .letter rfl
  · subst hbackslash
    exact .letter rfl
  · exact .letter (hline ▸ rfl)
  · exact .letter (hreturn ▸ rfl)
  · exact .letter (htab ▸ rfl)
  · exact .letter (hfeed ▸ rfl)
  · exact .letter (hback ▸ rfl)
  · exact .units
  · simp only [Bool.or_eq_true, decide_eq_true_eq, not_or] at hunits
    exact .plain hquote hbackslash (Nat.le_of_not_lt hunits.1)

/-- The units that are read for a character in a string stand for this character. -/
theorem units_of_escaped {c : Char} {cs : List Char} (h : Escaped c cs) :
    ∃ us, (∀ start read e rest, units start read (cs ++ e :: rest) =
        units start (us.reverse ++ read) (e :: rest)) ∧
      ∀ read rest, Text.Utf16.decodeUnits read none (us ++ rest) =
        Text.Utf16.decodeUnits (c :: read) none rest := by
  cases h with
  | letter h =>
    exact ⟨[c.toNat], fun start read e rest => units_letter start (e :: rest) read h,
      Text.Utf16.decodeUnits_character c⟩
  | units =>
    exact ⟨Text.utf16Units c, fun start read e rest => units_utf16Units start rest read c e,
      Text.Utf16.decodeUnits_utf16Units c⟩
  | plain hquote hbackslash hcontrol =>
    exact ⟨[c.toNat],
      fun start read e rest => units_plain start (e :: rest) read hquote hbackslash hcontrol,
      Text.Utf16.decodeUnits_character c⟩

/-- The units that are read for the characters of a string, up to its closing quote, stand for these
characters. -/
theorem units_string (asciiOnly : Bool) (cs start rest : List Char) :
    ∃ us, (∀ read, units start read (cs.flatMap (escape asciiOnly) ++ '"' :: rest) =
        .ok (read.reverse ++ us, rest)) ∧
      ∀ read, Text.Utf16.decodeUnits read none us = read.reverse ++ cs := by
  induction cs with
  | nil =>
    refine ⟨[], fun read => ?_, fun read => ?_⟩
    · rw [List.append_nil]
      rfl
    · rw [List.append_nil]
      rfl
  | cons c cs ih =>
    obtain ⟨first, hfirst, hc⟩ := units_of_escaped (escaped_escape asciiOnly c)
    obtain ⟨us, hunits, hcs⟩ := ih
    refine ⟨first ++ us, fun read => ?_, fun read => ?_⟩
    · obtain ⟨e, more, he⟩ : ∃ e more, cs.flatMap (escape asciiOnly) ++ '"' :: rest = e :: more :=
        List.exists_cons_of_ne_nil (by simp)
      rw [List.flatMap_cons, List.append_assoc, he, hfirst, ← he, hunits, List.reverse_append,
        List.reverse_reverse, List.append_assoc]
    · rw [hc, hcs, List.reverse_cons, List.append_assoc, List.singleton_append]

theorem string_append (asciiOnly : Bool) (s : String) (start rest : List Char) :
    string start (s.toList.flatMap (escape asciiOnly) ++ '"' :: rest) = .ok (s, rest) := by
  obtain ⟨us, hunits, hs⟩ := units_string asciiOnly s.toList start rest
  rw [string, hunits]
  simp only [List.reverse_nil, List.nil_append, hs, String.ofList_toList]

end Json

end Attest
