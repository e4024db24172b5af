import Attest.Codec.Base64Url
import Attest.Proofs.Text.Ascii

/-! The encoding by 64 characters is read back by the reader that accepts nothing else. Each induction
goes from three bytes, or four groups of six bits, to the next ones. -/

namespace Attest.Base64Url

theorem sextetsFrom_eq : (bytes : Bytes) → (read : List Nat) →
    sextetsFrom read bytes = read.reverse ++ sextets bytes
  | [], read => by simp [sextets, sextetsFrom]
  | [a], read => by simp [sextets, sextetsFrom]
  | [a, b], read => by simp [sextets, sextetsFrom]
  | a :: b :: c :: rest, read => by
    rw [sextets, sextetsFrom, sextetsFrom_eq rest, sextetsFrom, sextetsFrom_eq rest]
    simp

theorem sextets_cons (a b c : UInt8) (rest : Bytes) :
    sextets (a :: b :: c :: rest) = a.toNat / 4 :: (a.toNat % 4 * 16 + b.toNat / 16) ::
      (b.toNat % 16 * 4 + c.toNat / 64) :: c.toNat % 64 :: sextets rest := by
  rw [sextets, sextetsFrom, sextetsFrom_eq]
  simp

theorem sextets_two (a b : UInt8) :
    sextets [a, b] = [a.toNat / 4, a.toNat % 4 * 16 + b.toNat / 16, b.toNat % 16 * 4] := rfl

theorem sextets_one (a : UInt8) : sextets [a] = [a.toNat / 4, a.toNat % 4 * 16] := rfl

theorem bytesFrom_eq : (groups : List Nat) → (read : Bytes) →
    bytesFrom read groups = read.reverse ++ ofSextets groups
  | [], read => by simp [ofSextets, bytesFrom]
  | [a], read => by simp [ofSextets, bytesFrom]
  | [a, b], read => by simp [ofSextets, bytesFrom]
  | [a, b, c], read => by simp [ofSextets, bytesFrom]
  | a :: b :: c :: d :: rest, read => by
    rw [ofSextets, bytesFrom, bytesFrom_eq rest, bytesFrom, bytesFrom_eq rest]
    simp

theorem ofSextets_cons (a b c d : Nat) (rest : List Nat) :
    ofSextets (a :: b :: c :: d :: rest) = UInt8.ofNat (a * 4 + b / 16) ::
      UInt8.ofNat (b % 16 * 16 + c / 4) :: UInt8.ofNat (c % 4 * 64 + d) :: ofSextets rest := by
  rw [ofSextets, bytesFrom, bytesFrom_eq]
  simp

theorem byte_of_sextets {n : Nat} {b : UInt8} (h : n = b.toNat) : UInt8.ofNat n = b := by
  rw [h, UInt8.ofNat_toNat]

theorem ofSextets_sextets : (bytes : Bytes) → ofSextets (sextets bytes) = bytes
  | [] => rfl
  | [a] => by
    have ha := a.toNat_lt
    rw [sextets_one]
    exact congrArg (· :: []) (byte_of_sextets (by omega))
  | [a, b] => by
    have ha := a.toNat_lt
    have hb := b.toNat_lt
    rw [sextets_two]
    show [UInt8.ofNat _, UInt8.ofNat _] = _
    rw [byte_of_sextets (b := a) (by omega), byte_of_sextets (b := b) (by omega)]
  | a :: b :: c :: rest => by
    have ha := a.toNat_lt
    have hb := b.toNat_lt
    have hc := c.toNat_lt
    rw [sextets_cons, ofSextets_cons, ofSextets_sextets rest, byte_of_sextets (b := a) (by omega),
      byte_of_sextets (b := b) (by omega), byte_of_sextets (b := c) (by omega)]

theorem lt_of_mem_sextets : (bytes : Bytes) → ∀ n ∈ sextets bytes, n < 64
  | [] => nofun
  | [a] => by
    have ha := a.toNat_lt
    simp only [sextets_one, List.forall_mem_cons]
    exact ⟨by omega, by omega, nofun⟩
  | [a, b] => by
    have ha := a.toNat_lt
    have hb := b.toNat_lt
    simp only [sextets_two, List.forall_mem_cons]
    exact ⟨by omega, by omega, by omega, nofun⟩
  | a :: b :: c :: rest => by
    have ha := a.toNat_lt
    have hb := b.toNat_lt
    have hc := c.toNat_lt
    simp only [sextets_cons, List.forall_mem_cons]
    exact ⟨by omega, by omega, by omega, by omega, lt_of_mem_sextets rest⟩

/-- Four groups stand for three bytes, and two or three for one or two bytes at the end. -/
theorem length_sextets : (bytes : Bytes) → (sextets bytes).length = (4 * bytes.length + 2) / 3
  | [] => rfl
  | [a] => by simp [sextets_one]
  | [a, b] => by simp [sextets_two]
  | a :: b :: c :: rest => by
    have ih := length_sextets rest
    simp only [sextets_cons, List.length_cons]
    omega

/-- Four groups stand for three bytes, and those at the end for as many bytes as they fill. -/
theorem length_ofSextets : (groups : List Nat) → (ofSextets groups).length = 3 * groups.length / 4
  | [] => rfl
  | [_] => by simp [ofSextets, bytesFrom]
  | [_, _] => by simp [ofSextets, bytesFrom]
  | [_, _, _] => by simp [ofSextets, bytesFrom]
  | a :: b :: c :: d :: rest => by
    have ih := length_ofSextets rest
    simp only [ofSextets_cons, List.length_cons]
    omega

/-- No bytes have one group more than a multiple of four. -/
theorem length_sextets_mod (bytes : Bytes) : (sextets bytes).length % 4 ≠ 1 := by
  rw [length_sextets]
  omega

theorem length_encode (bytes : Bytes) : (encode bytes).length = (4 * bytes.length + 2) / 3 := by
  rw [encode, List.length_map, length_sextets]

theorem sextet?_character {n : Nat} (h : n < 64) : sextet? (character n) = some n := by
  have hall : ∀ m : Fin 64, sextet? (character m) = some m.val := by decide
  exact hall ⟨n, h⟩

/-- The characters of the encoding are in ASCII, and neither a dot nor one that the lenient reader
takes for something else is among them. -/
theorem character_spec {n : Nat} (h : n < 64) :
    (character n).toNat < 128 ∧ character n ≠ '.' ∧ character n ≠ '=' ∧ character n ≠ '+' ∧
      character n ≠ '/' := by
  have hall : ∀ m : Fin 64, (character m).toNat < 128 ∧ character m ≠ '.' ∧ character m ≠ '=' ∧
      character m ≠ '+' ∧ character m ≠ '/' := by decide
  exact hall ⟨n, h⟩

theorem isAscii_encode (bytes : Bytes) : Text.IsAscii (encode bytes) := by
  intro c hc
  obtain ⟨n, hn, rfl⟩ := List.mem_map.mp hc
  exact (character_spec (lt_of_mem_sextets bytes n hn)).1

theorem dot_not_mem_encode (bytes : Bytes) : '.' ∉ encode bytes := by
  intro hc
  obtain ⟨n, hn, hdot⟩ := List.mem_map.mp hc
  exact (character_spec (lt_of_mem_sextets bytes n hn)).2.1 hdot

/-- A character of the alphabet, which means the same in web addresses. -/
def IsUrlSafe (c : Char) : Prop := c.isAlphanum = true ∨ c = '-' ∨ c = '_'

instance (c : Char) : Decidable (IsUrlSafe c) := inferInstanceAs (Decidable (_ ∨ _))

theorem isUrlSafe_iff {c : Char} : IsUrlSafe c ↔ ∃ n < 64, character n = c := by
  constructor
  · rintro (hletter | rfl | rfl)
    · have hkinds : (c.isUpper || c.isLower || c.isDigit) = true := hletter
      simp only [Bool.or_eq_true] at hkinds
      rcases hkinds with (hupper | hlower) | hdigit
      · have hrange : 'A'.val ≤ c.val ∧ c.val ≤ 'Z'.val := of_decide_eq_true hupper
        have hlow : 0x41 ≤ c.toNat := hrange.1
        have hhigh : c.toNat ≤ 0x5a := hrange.2
        refine ⟨c.toNat - 0x41, by omega, ?_⟩
        rw [character, if_pos (by omega), Nat.add_sub_cancel' hlow, Char.ofNat_toNat]
      · have hrange := Bool.and_eq_true_iff.mp hlower
        have hlow : 0x61 ≤ c.toNat := of_decide_eq_true hrange.1
        have hhigh : c.toNat ≤ 0x7a := of_decide_eq_true hrange.2
        refine ⟨c.toNat - 0x61 + 26, by omega, ?_⟩
        rw [character, if_neg (by omega), if_pos (by omega), Nat.add_sub_cancel,
          Nat.add_sub_cancel' hlow, Char.ofNat_toNat]
      · have hrange := Bool.and_eq_true_iff.mp hdigit
        have hlow : 0x30 ≤ c.toNat := of_decide_eq_true hrange.1
        have hhigh : c.toNat ≤ 0x39 := of_decide_eq_true hrange.2
        refine ⟨c.toNat - 0x30 + 52, by omega, ?_⟩
        rw [character, if_neg (by omega), if_neg (by omega), if_pos (by omega), Nat.add_sub_cancel,
          Nat.add_sub_cancel' hlow, Char.ofNat_toNat]
    · exact ⟨62, by decide, rfl⟩
    · exact ⟨63, by decide, rfl⟩
  · rintro ⟨n, hn, rfl⟩
    have hall : ∀ m : Fin 64, IsUrlSafe (character m) := by decide
    exact hall ⟨n, hn⟩

theorem isUrlSafe_encode (bytes : Bytes) : ∀ c ∈ encode bytes, IsUrlSafe c := by
  intro c hc
  obtain ⟨n, hn, rfl⟩ := List.mem_map.mp hc
  exact isUrlSafe_iff.mpr ⟨n, lt_of_mem_sextets bytes n hn, rfl⟩

theorem sextetsOfCharsFrom_map {groups : List Nat} (h : ∀ n ∈ groups, n < 64) (read : List Nat) :
    sextetsOfCharsFrom read (groups.map character) = some (read.reverse ++ groups) := by
  induction groups generalizing read with
  | nil => simp [sextetsOfCharsFrom]
  | cons n rest ih =>
    rw [List.forall_mem_cons] at h
    rw [List.map_cons, sextetsOfCharsFrom, sextet?_character h.1]
    simp only [ih h.2, List.reverse_cons, List.append_assoc, List.singleton_append]

/-- Bytes are read back. -/
theorem decode?_encode (bytes : Bytes) : decode? (encode bytes) = some bytes := by
  rw [decode?, encode, sextetsOfCharsFrom_map (lt_of_mem_sextets bytes)]
  simp [ofSextets_sextets]

end Attest.Base64Url
