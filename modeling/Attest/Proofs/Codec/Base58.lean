import Attest.Codec.Base58
import Attest.Proofs.Text.Ascii
import Mathlib.Data.List.Induction
import Mathlib.Data.List.TakeWhile
import Mathlib.Tactic.Ring

/-! Base 58 is read back. Bytes are zeros followed by bytes of which the first one is not zero, and
these are the shortest ones of their number; its digits do not begin with a zero either, so the zeros
that are written for the first part can be told from them. -/

namespace Attest

namespace Bytes

theorem ofNat_toNat (bytes : Bytes) : ofNat bytes.length (toNat bytes) = bytes := by
  induction bytes using List.reverseRecOn with
  | nil => rfl
  | append_singleton bytes b ih =>
    have hb := b.toNat_lt
    have hquotient : (256 * toNat bytes + b.toNat) / 256 = toNat bytes := by omega
    have hlast : UInt8.ofNat (256 * toNat bytes + b.toNat) = b := by
      rw [← UInt8.toNat_inj, UInt8.toNat_ofNat']
      omega
    rw [List.length_append, List.length_singleton, ofNat_succ, toNat_concat, hquotient, hlast, ih]

theorem foldl_eq_toNat (n : Nat) (bytes : Bytes) :
    bytes.foldl (fun n b => 256 * n + b.toNat) n = n * 256 ^ bytes.length + toNat bytes := by
  induction bytes generalizing n with
  | nil => simp [toNat]
  | cons b rest ih =>
    rw [toNat, List.foldl_cons, List.foldl_cons, ih, ih (256 * 0 + b.toNat), List.length_cons,
      Nat.pow_succ]
    ring

theorem toNat_cons (b : UInt8) (rest : Bytes) :
    toNat (b :: rest) = b.toNat * 256 ^ rest.length + toNat rest := by
  rw [toNat, List.foldl_cons, foldl_eq_toNat, Nat.mul_zero, Nat.zero_add]

theorem toNat_lt (bytes : Bytes) : toNat bytes < 256 ^ bytes.length := by
  induction bytes with
  | nil => simp [toNat]
  | cons b rest ih =>
    have hb := b.toNat_lt
    rw [toNat_cons, List.length_cons, Nat.pow_succ']
    calc b.toNat * 256 ^ rest.length + toNat rest
      _ < b.toNat * 256 ^ rest.length + 256 ^ rest.length := Nat.add_lt_add_left ih _
      _ = (b.toNat + 1) * 256 ^ rest.length := by ring
      _ ≤ 256 * 256 ^ rest.length := Nat.mul_le_mul_right _ hb

theorem toNat_zeros_append (n : Nat) (bytes : Bytes) :
    toNat (List.replicate n 0 ++ bytes) = toNat bytes := by
  induction n with
  | zero => rfl
  | succ n ih => rw [List.replicate_succ, List.cons_append, toNat_cons, ih]; simp

end Bytes

namespace Base58

/-- Bytes of which the first one is not zero are as many as their number fills. -/
theorem byteLength_toNat {bytes : Bytes} (h : bytes.head? ≠ some 0) :
    byteLength bytes.toNat = bytes.length := by
  cases bytes with
  | nil => rfl
  | cons b rest =>
    have hb : b.toNat ≠ 0 := fun hzero => h (by
      rw [List.head?_cons, ← UInt8.toNat_inj.mp (show b.toNat = (0 : UInt8).toNat from hzero)])
    have hlow : 256 ^ rest.length ≤ Bytes.toNat (b :: rest) := by
      rw [Bytes.toNat_cons]
      exact Nat.le_trans (Nat.le_mul_of_pos_left _ (Nat.pos_of_ne_zero hb)) (Nat.le_add_right _ _)
    have hhigh := Bytes.toNat_lt (b :: rest)
    have hne : Bytes.toNat (b :: rest) ≠ 0 :=
      Nat.pos_iff_ne_zero.mp (Nat.lt_of_lt_of_le (Nat.pow_pos (by decide)) hlow)
    rw [List.length_cons] at hhigh ⊢
    generalize Bytes.toNat (b :: rest) = n at hlow hhigh hne
    have hlogLow : 8 * rest.length ≤ n.log2 := by
      rw [Nat.le_log2 hne, Nat.pow_mul]
      exact hlow
    have hlogHigh : n.log2 < 8 * (rest.length + 1) := by
      rw [Nat.log2_lt hne, Nat.pow_mul]
      exact hhigh
    rw [byteLength, if_neg hne]
    omega

theorem value?_digit {n : Nat} (h : n < 58) : value? (digit n) = some n := by
  have hall : ∀ m : Fin 58, value? (digit m) = some m.val := by decide
  exact hall ⟨n, h⟩

/-- A character that base 58 uses: in ASCII, no blank, and none that separates parts of an
identifier. -/
def IsDigitChar (c : Char) : Prop :=
  c.toNat < 128 ∧ Text.isBlank c = false ∧ c ≠ '#' ∧ c ≠ ':'

instance (c : Char) : Decidable (IsDigitChar c) := inferInstanceAs (Decidable (_ ∧ _))

theorem isDigitChar_digit {n : Nat} (h : n < 58) : IsDigitChar (digit n) := by
  have hall : ∀ m : Fin 58, IsDigitChar (digit m) := by decide
  exact hall ⟨n, h⟩

theorem digit_ne_zero {n : Nat} (h : n < 58) (hne : n ≠ 0) : digit n ≠ digit 0 := by
  intro heq
  have hvalue := value?_digit h
  rw [heq, value?_digit (by decide)] at hvalue
  exact hne (Option.some.inj hvalue).symm

theorem numberFrom_digitsBefore {fuel n : Nat} (h : n < 58 ^ fuel) (after : List Char) :
    numberFrom 0 (digitsBefore after fuel n) = numberFrom n after := by
  -- The digits are made from the last one on, so those that stand already are general.
  induction fuel generalizing n after with
  | zero =>
    obtain rfl : n = 0 := by simpa using h
    rfl
  | succ fuel ih =>
    by_cases hn : n = 0
    · rw [hn, digitsBefore, if_pos rfl]
    · have hquotient : n / 58 < 58 ^ fuel :=
        Nat.div_lt_of_lt_mul (by rwa [Nat.pow_succ, Nat.mul_comm] at h)
      rw [digitsBefore, if_neg hn, ih hquotient, numberFrom, value?_digit (Nat.mod_lt _ (by decide))]
      simp only [Nat.div_add_mod]

theorem head?_digitsBefore {fuel n : Nat} {after : List Char} (h : n < 58 ^ fuel)
    (hafter : n = 0 → after.head? ≠ some (digit 0)) :
    (digitsBefore after fuel n).head? ≠ some (digit 0) := by
  induction fuel generalizing n after with
  | zero =>
    obtain rfl : n = 0 := by simpa using h
    exact hafter rfl
  | succ fuel ih =>
    by_cases hn : n = 0
    · rw [hn, digitsBefore, if_pos rfl]
      exact hafter hn
    · have hquotient : n / 58 < 58 ^ fuel :=
        Nat.div_lt_of_lt_mul (by rwa [Nat.pow_succ, Nat.mul_comm] at h)
      rw [digitsBefore, if_neg hn]
      refine ih hquotient fun hzero => ?_
      rw [List.head?_cons, ne_eq, Option.some.injEq]
      exact digit_ne_zero (Nat.mod_lt _ (by decide)) (by omega)

theorem isDigitChar_digitsBefore {after : List Char} (hafter : ∀ c ∈ after, IsDigitChar c)
    (fuel n : Nat) : ∀ c ∈ digitsBefore after fuel n, IsDigitChar c := by
  induction fuel generalizing n after with
  | zero => exact hafter
  | succ fuel ih =>
    rw [digitsBefore]
    split
    · exact hafter
    · exact ih (List.forall_mem_cons.mpr
        ⟨isDigitChar_digit (Nat.mod_lt _ (by decide)), hafter⟩) _

/-- What bytes are written as: a digit zero for each zero byte at the start, and the digits of the
number of the other bytes. -/
theorem encode_eq (bytes : Bytes) :
    ∃ (zeros : Nat) (rest : Bytes), bytes = List.replicate zeros 0 ++ rest ∧ rest.head? ≠ some 0 ∧
      encode bytes = List.replicate zeros (digit 0) ++
        digitsBefore [] (2 * bytes.length) rest.toNat := by
  have hzeros : bytes.takeWhile (· == 0) =
      List.replicate (bytes.takeWhile (· == 0)).length 0 := by
    refine List.eq_replicate_of_mem fun b hb => ?_
    simpa using List.mem_takeWhile_imp hb
  have hsplit := List.takeWhile_append_dropWhile (p := (· == 0)) (l := bytes)
  refine ⟨(bytes.takeWhile (· == 0)).length, bytes.dropWhile (· == 0), ?_, ?_, ?_⟩
  · rw [← hzeros, hsplit]
  · intro hhead
    have := List.head?_dropWhile_not (· == 0) bytes
    rw [hhead] at this
    simp at this
  · have hnumber : bytes.toNat = Bytes.toNat (bytes.dropWhile (· == 0)) := by
      calc bytes.toNat
        _ = Bytes.toNat (bytes.takeWhile (· == 0) ++ bytes.dropWhile (· == 0)) := by rw [hsplit]
        _ = Bytes.toNat (bytes.dropWhile (· == 0)) := by rw [hzeros, Bytes.toNat_zeros_append]
    rw [encode, hnumber, List.map_const']

theorem isDigitChar_encode (bytes : Bytes) : ∀ c ∈ encode bytes, IsDigitChar c := by
  obtain ⟨zeros, rest, -, -, hencode⟩ := encode_eq bytes
  intro c hc
  rw [hencode] at hc
  rcases List.mem_append.mp hc with hc | hc
  · rw [(List.mem_replicate.mp hc).2]
    exact isDigitChar_digit (by decide)
  · exact isDigitChar_digitsBefore (List.forall_mem_nil _) _ _ c hc

theorem stripEnd_of_isDigitChar {cs : List Char} (h : ∀ c ∈ cs, IsDigitChar c) :
    Text.stripEnd cs = cs := by
  cases cs using List.reverseRecOn with
  | nil => rfl
  | append_singleton cs c => exact Text.stripEnd_concat (h c (by simp)).2.1

theorem takeWhile_of_head?_ne {α : Type} [DecidableEq α] {x : α} {xs : List α}
    (h : xs.head? ≠ some x) : xs.takeWhile (· == x) = [] := by
  cases xs with
  | nil => rfl
  | cons y rest =>
    rw [List.takeWhile_cons_of_neg]
    simpa using h

/-- There are fewer digits than twice the bytes, since 58 squared exceeds 256. -/
theorem toNat_lt_pow (bytes : Bytes) : bytes.toNat < 58 ^ (2 * bytes.length) :=
  calc bytes.toNat
    _ < 256 ^ bytes.length := Bytes.toNat_lt bytes
    _ ≤ (58 ^ 2) ^ bytes.length := Nat.pow_le_pow_left (by decide) _
    _ = 58 ^ (2 * bytes.length) := (Nat.pow_mul 58 2 bytes.length).symm

/-- Bytes are read back. -/
theorem decode_encode (bytes : Bytes) : decode (encode bytes) = .ok bytes := by
  have hchars := isDigitChar_encode bytes
  have hascii := Text.ascii_eq_ok_iff.mpr ⟨fun c hc => (hchars c hc).1, rfl⟩
  obtain ⟨zeros, rest, hbytes, hrest, hencode⟩ := encode_eq bytes
  have hfuel : rest.toNat < 58 ^ (2 * bytes.length) := by
    have hnumber : bytes.toNat = rest.toNat := by rw [hbytes, Bytes.toNat_zeros_append]
    rw [← hnumber]
    exact toNat_lt_pow bytes
  have hhead : (digitsBefore [] (2 * bytes.length) rest.toNat).head? ≠ some (digit 0) :=
    head?_digitsBefore hfuel (by simp)
  have hzeros : ∀ c ∈ List.replicate zeros (digit 0), (c == digit 0) = true := by simp
  have htake : (encode bytes).takeWhile (· == digit 0) = List.replicate zeros (digit 0) := by
    rw [hencode, List.takeWhile_append_of_pos hzeros, takeWhile_of_head?_ne hhead, List.append_nil]
  have hdrop : (encode bytes).dropWhile (· == digit 0) =
      digitsBefore [] (2 * bytes.length) rest.toNat := by
    rw [hencode, List.dropWhile_append_of_pos hzeros, List.dropWhile_beq_eq_self_of_head?_ne hhead]
  simp only [decode, stripEnd_of_isDigitChar hchars, hascii, htake, hdrop,
    numberFrom_digitsBefore hfuel, numberFrom]
  rw [byteLength_toNat hrest, Bytes.ofNat_toNat, List.map_const', List.length_replicate, ← hbytes]

end Base58

end Attest
