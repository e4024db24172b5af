import Attest.Proofs.Codec.Base58

/-! The digits of base 58. A text that is read is what its bytes are written as, with blanks at the end,
and the first digits of a number are those of its quotient by a power of the base. -/

namespace Attest

namespace Text

/-- The characters are all blank. -/
def AreBlank (cs : List Char) : Prop := ∀ c ∈ cs, isBlank c = true

instance (cs : List Char) : Decidable (AreBlank cs) := List.decidableBAll _ cs

theorem exists_stripEnd_append (cs : List Char) : ∃ blanks, AreBlank blanks ∧
    cs = stripEnd cs ++ blanks := by
  refine ⟨(cs.reverse.takeWhile isBlank).reverse, ?_, ?_⟩
  · intro c hc
    exact List.mem_takeWhile_imp (List.mem_reverse.mp hc)
  · rw [stripEnd, ← List.reverse_append, List.takeWhile_append_dropWhile, List.reverse_reverse]

theorem stripEnd_append {blanks : List Char} (h : AreBlank blanks) (cs : List Char) :
    stripEnd (cs ++ blanks) = stripEnd cs := by
  have hall : ∀ c ∈ blanks.reverse, isBlank c = true := fun c hc => h c (List.mem_reverse.mp hc)
  rw [stripEnd, List.reverse_append, List.dropWhile_append_of_pos hall, stripEnd]

end Text

theorem Bytes.toNat_append (front rest : Bytes) :
    toNat (front ++ rest) = toNat front * 256 ^ rest.length + toNat rest := by
  rw [toNat, List.foldl_append, foldl_eq_toNat]
  rfl

namespace Base58

theorem digit_of_value? {c : Char} {d : Nat} (h : value? c = some d) : d < 58 ∧ digit d = c := by
  obtain ⟨hd, hc, -⟩ := List.findIdx?_eq_some_iff_getElem.mp h
  refine ⟨hd, ?_⟩
  rw [digit, List.getD_eq_getElem?_getD, List.getElem?_eq_getElem hd]
  exact beq_iff_eq.mp hc

theorem numberFrom_concat {cs : List Char} {c : Char} {n m : Nat}
    (h : numberFrom n (cs ++ [c]) = .ok m) :
    ∃ k d, numberFrom n cs = .ok k ∧ value? c = some d ∧ m = 58 * k + d := by
  induction cs generalizing n with
  | nil =>
    rw [List.nil_append, numberFrom] at h
    split at h
    · rename_i d hd
      exact ⟨n, d, rfl, hd, (Except.ok.inj h).symm⟩
    · cases h
  | cons b rest ih =>
    rw [List.cons_append, numberFrom] at h
    rw [numberFrom]
    split at h
    · exact ih h
    · cases h

/-- The digits of the number of a text are this text, unless it begins with a zero. -/
theorem digitsBefore_of_numberFrom {cs : List Char} {n fuel : Nat} (hread : numberFrom 0 cs = .ok n)
    (hhead : cs.head? ≠ some (digit 0)) (hfuel : n < 58 ^ fuel) (after : List Char) :
    digitsBefore after fuel n = cs ++ after := by
  -- The last digit is the one that is made first.
  induction cs using List.reverseRecOn generalizing n fuel after with
  | nil =>
    obtain rfl : 0 = n := Except.ok.inj hread
    cases fuel <;> rfl
  | append_singleton cs c ih =>
    obtain ⟨k, d, hk, hd, rfl⟩ := numberFrom_concat hread
    obtain ⟨hlt, rfl⟩ := digit_of_value? hd
    have hfront : cs.head? ≠ some (digit 0) := by
      cases cs with
      | nil => nofun
      | cons b rest => exact hhead
    have hne : 58 * k + d ≠ 0 := by
      intro hzero
      obtain rfl : k = 0 := by omega
      obtain rfl : d = 0 := by omega
      obtain rfl : [] = cs := by simpa [digitsBefore] using ih hk hfront (show 0 < 58 ^ 0 by decide) []
      exact hhead rfl
    cases fuel with
    | zero => exact absurd hfuel (by omega)
    | succ fuel =>
      have hquotient : (58 * k + d) / 58 = k := by omega
      have hlast : (58 * k + d) % 58 = d := by omega
      have hk58 : k < 58 ^ fuel := by
        rw [Nat.pow_succ] at hfuel
        omega
      rw [digitsBefore, if_neg hne, hlast, hquotient, ih hk hfront hk58, List.append_assoc,
        List.singleton_append]

theorem lt_pow_byteLength (n : Nat) : n < 256 ^ byteLength n := by
  by_cases hn : n = 0
  · rw [hn]
    decide
  · calc n
      _ < 2 ^ (n.log2 + 1) := Nat.lt_log2_self
      _ ≤ 2 ^ (8 * (n.log2 / 8 + 1)) := Nat.pow_le_pow_right (by decide) (by omega)
      _ = 256 ^ byteLength n := by rw [byteLength, if_neg hn, Nat.pow_mul]

/-- What a text has that is read as bytes: a digit for each zero byte at the start, and the digits of the
number of the bytes. -/
theorem stripEnd_of_decode {cs : List Char} {bytes : Bytes} (h : decode cs = .ok bytes) :
    ∃ zeros, bytes.length = zeros + byteLength bytes.toNat ∧
      ∀ fuel, bytes.toNat < 58 ^ fuel →
        Text.stripEnd cs = List.replicate zeros (digit 0) ++ digitsBefore [] fuel bytes.toNat := by
  unfold decode at h
  simp only at h
  split at h
  · cases h
  split at h
  · cases h
  rename_i n hn
  obtain rfl := Except.ok.inj h
  have hzeros : (Text.stripEnd cs).takeWhile (· == digit 0) =
      List.replicate ((Text.stripEnd cs).takeWhile (· == digit 0)).length (digit 0) := by
    refine List.eq_replicate_of_mem fun c hc => ?_
    simpa using List.mem_takeWhile_imp hc
  have hhead : ((Text.stripEnd cs).dropWhile (· == digit 0)).head? ≠ some (digit 0) := by
    intro hhead
    have := List.head?_dropWhile_not (· == digit 0) (Text.stripEnd cs)
    rw [hhead] at this
    simp at this
  have hnumber : Bytes.toNat (List.replicate ((Text.stripEnd cs).takeWhile (· == digit 0)).length 0 ++
      Bytes.ofNat (byteLength n) n) = n := by
    rw [Bytes.toNat_zeros_append, Bytes.toNat_ofNat (lt_pow_byteLength n)]
  rw [List.map_const', hnumber]
  refine ⟨((Text.stripEnd cs).takeWhile (· == digit 0)).length, ?_, fun fuel hfuel => ?_⟩
  · rw [List.length_append, List.length_replicate, Bytes.length_ofNat]
  · rw [digitsBefore_of_numberFrom hn hhead hfuel, List.append_nil, ← hzeros,
      List.takeWhile_append_dropWhile]

theorem decode_of_stripEnd {cs ds : List Char} (h : Text.stripEnd cs = Text.stripEnd ds) :
    decode cs = decode ds := by
  unfold decode
  rw [h]

/-- The texts that are read as bytes are what the bytes are written as, followed by blanks. -/
theorem decode_eq_ok_iff {cs : List Char} {bytes : Bytes} :
    decode cs = .ok bytes ↔ ∃ blanks, Text.AreBlank blanks ∧ cs = encode bytes ++ blanks := by
  have hself : Text.stripEnd (encode bytes) = encode bytes :=
    stripEnd_of_isDigitChar (isDigitChar_encode bytes)
  constructor
  · intro h
    obtain ⟨zeros, hzeros, hdigits⟩ := stripEnd_of_decode h
    obtain ⟨zeros', hzeros', hdigits'⟩ := stripEnd_of_decode (decode_encode bytes)
    obtain rfl : zeros = zeros' := by omega
    obtain ⟨blanks, hblanks, hcs⟩ := Text.exists_stripEnd_append cs
    refine ⟨blanks, hblanks, ?_⟩
    rw [hcs, hdigits _ (toNat_lt_pow bytes), ← hdigits' _ (toNat_lt_pow bytes), hself]
  · rintro ⟨blanks, hblanks, rfl⟩
    rw [decode_of_stripEnd (Text.stripEnd_append hblanks _), decode_encode]

theorem digitsBefore_eq_append (after : List Char) (fuel n : Nat) :
    digitsBefore after fuel n = digitsBefore [] fuel n ++ after := by
  induction fuel generalizing after n with
  | zero => rfl
  | succ fuel ih =>
    rw [digitsBefore, digitsBefore]
    split
    · rfl
    · rw [ih, ih [digit (n % 58)], List.append_assoc, List.singleton_append]

/-- The digits of a number are those of its quotient by a power of 58, unless this is zero, and as many
more as the exponent says. -/
theorem digitsBefore_add {fuel count n : Nat} (h : n / 58 ^ count ≠ 0) :
    ∃ low, digitsBefore [] (fuel + count) n = digitsBefore [] fuel (n / 58 ^ count) ++ low := by
  induction count generalizing n with
  | zero => exact ⟨[], by simp⟩
  | succ count ih =>
    have hquotient : n / 58 ^ (count + 1) = n / 58 / 58 ^ count := by
      rw [Nat.pow_succ', Nat.div_div_eq_div_mul]
    have hne : n ≠ 0 := by
      rintro rfl
      exact h (Nat.zero_div _)
    rw [hquotient] at h ⊢
    obtain ⟨low, hlow⟩ := ih h
    refine ⟨low ++ [digit (n % 58)], ?_⟩
    rw [← Nat.add_assoc, digitsBefore, if_neg hne, digitsBefore_eq_append, hlow, List.append_assoc]

/-- Bytes of which the first one is not zero are written as the digits of their number. -/
theorem encode_of_head?_ne {bytes : Bytes} (h : bytes.head? ≠ some 0) :
    encode bytes = digitsBefore [] (2 * bytes.length) bytes.toNat := by
  rw [encode, takeWhile_of_head?_ne h]
  rfl

/-- The first bytes tell the first digits, if all numbers with these bytes have the same quotient by a
power of 58. -/
theorem exists_encode_append {front rest : Bytes} (fuel count lead : Nat)
    (hhead : (front ++ rest).head? ≠ some 0) (hfuel : 2 * (front ++ rest).length = fuel + count)
    (hlead : lead ≠ 0) (hlow : lead * 58 ^ count ≤ front.toNat * 256 ^ rest.length)
    (hhigh : (front.toNat + 1) * 256 ^ rest.length ≤ (lead + 1) * 58 ^ count) :
    ∃ low, encode (front ++ rest) = digitsBefore [] fuel lead ++ low := by
  have hnumber := Bytes.toNat_append front rest
  have hrest := Bytes.toNat_lt rest
  have hquotient : Bytes.toNat (front ++ rest) / 58 ^ count = lead := by
    refine Nat.div_eq_of_lt_le ?_ ?_
    · calc lead * 58 ^ count
        _ ≤ front.toNat * 256 ^ rest.length := hlow
        _ ≤ Bytes.toNat (front ++ rest) := hnumber ▸ Nat.le_add_right _ _
    · calc Bytes.toNat (front ++ rest)
        _ < front.toNat * 256 ^ rest.length + 256 ^ rest.length :=
          hnumber ▸ Nat.add_lt_add_left hrest _
        _ = (front.toNat + 1) * 256 ^ rest.length := (Nat.succ_mul _ _).symm
        _ ≤ (lead + 1) * 58 ^ count := hhigh
  rw [encode_of_head?_ne hhead, hfuel]
  rw [← hquotient] at hlead ⊢
  exact digitsBefore_add hlead

end Base58

end Attest
