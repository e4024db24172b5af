import Attest.Text.Utf8

/-! Texts of ASCII: they have one byte for each character, and the same bytes in UTF-8. -/

namespace Attest.Text

/-- The characters of a text are all in ASCII. -/
def IsAscii (cs : List Char) : Prop := ∀ c ∈ cs, c.toNat < 128

instance (cs : List Char) : Decidable (IsAscii cs) := List.decidableBAll _ cs

theorem IsAscii.append {cs ds : List Char} (hc : IsAscii cs) (hd : IsAscii ds) : IsAscii (cs ++ ds) :=
  fun c hmem => (List.mem_append.mp hmem).elim (hc c) (hd c)

theorem IsAscii.cons {c : Char} {cs : List Char} (hc : c.toNat < 128) (hcs : IsAscii cs) :
    IsAscii (c :: cs) := List.forall_mem_cons.mpr ⟨hc, hcs⟩

theorem IsAscii.nil : IsAscii [] := nofun

theorem isAscii_of_isDigit {c : Char} (h : c.isDigit = true) : c.toNat < 128 := by
  simp only [Char.isDigit, Bool.and_eq_true, decide_eq_true_eq] at h
  exact Nat.lt_of_le_of_lt h.2 (by decide)

theorem Utf8.encode_of_ascii {cs : List Char} (h : ∀ c ∈ cs, c.toNat < 128) :
    Utf8.encode cs = cs.map fun c => UInt8.ofNat c.toNat := by
  induction cs with
  | nil => rfl
  | cons c rest ih =>
    have hc : String.utf8EncodeChar c = [UInt8.ofNat c.toNat] := by
      have hlow : c.toNat ≤ 0x7f := Nat.le_of_lt_succ (h c (by simp))
      simp only [String.utf8EncodeChar]
      exact if_pos hlow
    rw [encode, List.flatMap_cons, hc, ← encode, ih fun d hd => h d (by simp [hd])]
    rfl

/-- Exactly the texts whose characters are all in ASCII have bytes in it, those in UTF-8. -/
theorem ascii_eq_ok_iff {cs : List Char} {bytes : List UInt8} :
    ascii cs = .ok bytes ↔ (∀ c ∈ cs, c.toNat < 128) ∧ bytes = Utf8.encode cs := by
  have hinside : cs.dropWhile (fun c => decide (c.toNat < 128)) = [] ↔ ∀ c ∈ cs, c.toNat < 128 := by
    induction cs with
    | nil => simp
    | cons c rest ih => by_cases hc : c.toNat < 128 <;> simp [hc, ih]
  unfold ascii
  simp only
  split
  · rename_i h
    rw [Utf8.encode_of_ascii (hinside.mp h), Except.ok.injEq]
    constructor
    · intro hbytes
      exact ⟨hinside.mp h, hbytes.symm⟩
    · rintro ⟨-, hbytes⟩
      exact hbytes.symm
  · rename_i c rest h
    constructor
    · intro herror
      cases herror
    · rintro ⟨hall, -⟩
      rw [hinside.mpr hall] at h
      cases h

end Attest.Text
