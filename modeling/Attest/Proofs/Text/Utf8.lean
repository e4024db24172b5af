import Attest.Text.Utf8

/-! UTF-8 is read back: of the bytes of a character the first one announces how many follow and within
which bounds, each further one adds six bits, and the last one completes the character. -/

namespace Attest.Text

theorem toNat_lt (c : Char) : c.toNat < 0x110000 := by
  rcases c.valid with h | ⟨-, h⟩
  · exact Nat.lt_trans h (by decide)
  · exact h

namespace Utf8

variable {b : UInt8} {p : Pending}

theorem decodeFrom_ascii (position : Nat) (read : List Char) (rest : List UInt8)
    (h : b.toNat < 0x80) :
    decodeFrom position read none (b :: rest) =
      decodeFrom (position + 1) (characterAt b.toNat :: read) none rest := by
  rw [decodeFrom]
  exact if_pos h

theorem decodeFrom_lead (position : Nat) (read : List Char) (rest : List UInt8)
    (hb : 0x80 ≤ b.toNat) (hp : Pending.ofLead? b = some p) :
    decodeFrom position read none (b :: rest) = decodeFrom (position + 1) read (some p) rest := by
  rw [decodeFrom]
  simp only [Nat.not_lt.mpr hb, if_false, hp]

theorem decodeFrom_inside (position : Nat) (read : List Char) (rest : List UInt8)
    (hlow : p.low ≤ b.toNat) (hhigh : b.toNat ≤ p.high) (hmore : p.missing ≠ 1) :
    decodeFrom position read (some p) (b :: rest) =
      decodeFrom (position + 1) read
        (some ⟨b :: p.seen, p.bits * 64 + b.toNat % 64, p.missing - 1, 0x80, 0xbf⟩) rest := by
  rw [decodeFrom]
  simp only [hlow, hhigh, decide_true, Bool.and_self, if_true, hmore, if_false]

theorem decodeFrom_last (position : Nat) (read : List Char) (rest : List UInt8)
    (hlow : p.low ≤ b.toNat) (hhigh : b.toNat ≤ p.high) (hlast : p.missing = 1) :
    decodeFrom position read (some p) (b :: rest) =
      decodeFrom (position + 1) (characterAt (p.bits * 64 + b.toNat % 64) :: read) none rest := by
  rw [decodeFrom]
  simp only [hlow, hhigh, decide_true, Bool.and_self, if_true, hlast]

theorem ofLead?_two (h : 0xc2 ≤ b.toNat) (h' : b.toNat < 0xe0) :
    Pending.ofLead? b = some ⟨[b], b.toNat - 0xc0, 1, 0x80, 0xbf⟩ := by
  have hbits : b.toNat % 0x20 = b.toNat - 0xc0 := by omega
  simp only [Pending.ofLead?, Nat.not_lt.mpr h, h', if_false, if_true, hbits]

/-- The second of three bytes is bounded from below if the first one is the least. -/
theorem ofLead?_three (h : 0xe0 ≤ b.toNat) (h' : b.toNat < 0xf0) :
    Pending.ofLead? b =
      some ⟨[b], b.toNat - 0xe0, 2, if b.toNat = 0xe0 then 0xa0 else 0x80, 0xbf⟩ := by
  have hbits : b.toNat % 0x10 = b.toNat - 0xe0 := by omega
  have hlead : ¬b.toNat < 0xc2 ∧ ¬b.toNat < 0xe0 := by omega
  by_cases hleast : b.toNat = 0xe0
  · simp [Pending.ofLead?, hleast]
  · simp only [Pending.ofLead?, hlead.1, hlead.2, hleast, h', if_false, if_true, hbits]

/-- The second of four bytes is bounded from below if the first one is the least, and from above if it
is the greatest. -/
theorem ofLead?_four (h : 0xf0 ≤ b.toNat) (h' : b.toNat ≤ 0xf4) :
    Pending.ofLead? b = some ⟨[b], b.toNat - 0xf0, 3, if b.toNat = 0xf0 then 0x90 else 0x80,
      if b.toNat = 0xf4 then 0x8f else 0xbf⟩ := by
  have hbits : b.toNat % 8 = b.toNat - 0xf0 := by omega
  have hlead : ¬b.toNat < 0xc2 ∧ ¬b.toNat < 0xe0 ∧ ¬b.toNat = 0xe0 ∧ ¬b.toNat < 0xf0 := by omega
  by_cases hleast : b.toNat = 0xf0
  · simp [Pending.ofLead?, hleast]
  · by_cases hgreatest : b.toNat = 0xf4
    · simp [Pending.ofLead?, hgreatest]
    · have hbelow : b.toNat < 0xf4 := by omega
      simp only [Pending.ofLead?, hlead, hleast, hgreatest, hbelow, if_false, if_true, hbits]

/-- The bytes of the character with code point `n`. -/
def characterBytes (n : Nat) : List UInt8 :=
  if n ≤ 0x7f then [UInt8.ofNat n]
  else if n ≤ 0x7ff then [UInt8.ofNat (n / 64 % 0x20 + 0xc0), UInt8.ofNat (n % 64 + 0x80)]
  else if n ≤ 0xffff then
    [UInt8.ofNat (n / 4096 % 0x10 + 0xe0), UInt8.ofNat (n / 64 % 64 + 0x80),
      UInt8.ofNat (n % 64 + 0x80)]
  else
    [UInt8.ofNat (n / 262144 % 8 + 0xf0), UInt8.ofNat (n / 4096 % 64 + 0x80),
      UInt8.ofNat (n / 64 % 64 + 0x80), UInt8.ofNat (n % 64 + 0x80)]

theorem utf8EncodeChar_eq (c : Char) : String.utf8EncodeChar c = characterBytes c.toNat := rfl

theorem toNat_byte {n : Nat} (h : n < 0x100) : (UInt8.ofNat n).toNat = n := by
  rw [UInt8.toNat_ofNat']
  exact Nat.mod_eq_of_lt h

section

variable {n : Nat} (position : Nat) (read : List Char) (rest : List UInt8)

theorem decodeFrom_two (hlow : 0x80 ≤ n) (hhigh : n ≤ 0x7ff) :
    decodeFrom position read none
        (UInt8.ofNat (n / 64 % 0x20 + 0xc0) :: UInt8.ofNat (n % 64 + 0x80) :: rest) =
      decodeFrom (position + 2) (characterAt n :: read) none rest := by
  have h1 := toNat_byte (n := n / 64 % 0x20 + 0xc0) (by omega)
  have h2 := toNat_byte (n := n % 64 + 0x80) (by omega)
  rw [decodeFrom_lead _ _ _ (by omega) (ofLead?_two (by omega) (by omega)),
    decodeFrom_last _ _ _ (by simp only; omega) (by simp only; omega) rfl]
  simp only [h1, h2]
  congr 3
  omega

theorem decodeFrom_three (hlow : 0x800 ≤ n) (hhigh : n ≤ 0xffff) :
    decodeFrom position read none
        (UInt8.ofNat (n / 4096 % 0x10 + 0xe0) :: UInt8.ofNat (n / 64 % 64 + 0x80) ::
          UInt8.ofNat (n % 64 + 0x80) :: rest) =
      decodeFrom (position + 3) (characterAt n :: read) none rest := by
  have h1 := toNat_byte (n := n / 4096 % 0x10 + 0xe0) (by omega)
  have h2 := toNat_byte (n := n / 64 % 64 + 0x80) (by omega)
  have h3 := toNat_byte (n := n % 64 + 0x80) (by omega)
  rw [decodeFrom_lead _ _ _ (by omega) (ofLead?_three (by omega) (by omega)),
    decodeFrom_inside _ _ _ (by simp only; split <;> omega) (by simp only; omega) (by simp),
    decodeFrom_last _ _ _ (by simp only; omega) (by simp only; omega) rfl]
  simp only [h1, h2, h3]
  congr 3
  omega

theorem decodeFrom_four (hlow : 0x10000 ≤ n) (hhigh : n < 0x110000) :
    decodeFrom position read none
        (UInt8.ofNat (n / 262144 % 8 + 0xf0) :: UInt8.ofNat (n / 4096 % 64 + 0x80) ::
          UInt8.ofNat (n / 64 % 64 + 0x80) :: UInt8.ofNat (n % 64 + 0x80) :: rest) =
      decodeFrom (position + 4) (characterAt n :: read) none rest := by
  have h1 := toNat_byte (n := n / 262144 % 8 + 0xf0) (by omega)
  have h2 := toNat_byte (n := n / 4096 % 64 + 0x80) (by omega)
  have h3 := toNat_byte (n := n / 64 % 64 + 0x80) (by omega)
  have h4 := toNat_byte (n := n % 64 + 0x80) (by omega)
  rw [decodeFrom_lead _ _ _ (by omega) (ofLead?_four (by omega) (by omega)),
    decodeFrom_inside _ _ _ (by simp only; split <;> omega) (by simp only; split <;> omega)
      (by simp),
    decodeFrom_inside _ _ _ (by simp only; omega) (by simp only; omega) (by simp),
    decodeFrom_last _ _ _ (by simp only; omega) (by simp only; omega) rfl]
  simp only [h1, h2, h3, h4]
  congr 3
  omega

theorem decodeFrom_characterBytes (hn : n < 0x110000) :
    decodeFrom position read none (characterBytes n ++ rest) =
      decodeFrom (position + (characterBytes n).length) (characterAt n :: read) none rest := by
  unfold characterBytes
  by_cases hone : n ≤ 0x7f
  · have h1 := toNat_byte (n := n) (by omega)
    simp only [if_pos hone]
    rw [List.singleton_append, decodeFrom_ascii _ _ _ (by omega), h1]
    rfl
  by_cases htwo : n ≤ 0x7ff
  · simp only [if_neg hone, if_pos htwo]
    exact decodeFrom_two position read rest (by omega) htwo
  by_cases hthree : n ≤ 0xffff
  · simp only [if_neg hone, if_neg htwo, if_pos hthree]
    exact decodeFrom_three position read rest (by omega) hthree
  · simp only [if_neg hone, if_neg htwo, if_neg hthree]
    exact decodeFrom_four position read rest (by omega) hn

end

theorem decodeFrom_encode (cs read : List Char) (position : Nat) :
    decodeFrom position read none (encode cs) = .ok (read.reverse ++ cs) := by
  induction cs generalizing read position with
  | nil =>
    rw [List.append_nil]
    rfl
  | cons c rest ih =>
    rw [encode, List.flatMap_cons, ← encode, utf8EncodeChar_eq,
      decodeFrom_characterBytes _ _ _ (toNat_lt c), ih, characterAt_toNat, List.reverse_cons,
      List.append_assoc, List.singleton_append]

/-- A text is read back from its bytes. -/
theorem decode_encode (cs : List Char) : decode (encode cs) = .ok cs := decodeFrom_encode cs [] 0

end Utf8

end Attest.Text
