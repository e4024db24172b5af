import Attest.Proofs.Codec.Base64Url

/-! The lenient reader of the encoding by 64 characters. It restores the padding of a text and reads the
text with it. What it makes of a text over the alphabet hangs on the length alone: one character after
the last four is refused, with any padding, and otherwise the padding that is restored is the least one
with which the text is read. -/

namespace Attest.Base64Url

/-- How many padding characters complete a text of so many characters to a multiple of four. -/
def padding (characters : Nat) : Nat := (4 - characters % 4) % 4

/-- What the lenient reader makes of a text that comes with its padding. -/
def decodePadded (cs : List Char) : Except LenientError Bytes :=
  if cs.any fun c => 0x7f < c.toNat then .error .notAscii
  else
    let (groups, complete) := scanFrom [] 0 0 cs
    if complete || groups.length % 4 = 0 then .ok (ofSextets groups)
    else if groups.length % 4 = 1 then .error (.oneTooMany groups.length)
    else .error .padding

theorem any_append_replicate (cs : List Char) (pads : Nat) :
    (cs ++ List.replicate pads '=').any (fun c => 0x7f < c.toNat) =
      cs.any fun c => 0x7f < c.toNat := by
  have hpads : (List.replicate pads '=').any (fun c => 0x7f < c.toNat) = false := by
    rw [List.any_eq_false]
    intro c hc
    rw [List.eq_of_mem_replicate hc]
    decide
  rw [List.any_append, hpads, Bool.or_false]

/-- The lenient reader restores the padding, and reads the text with it. -/
theorem decodeLenient_eq (cs : List Char) :
    decodeLenient cs = decodePadded (cs ++ List.replicate (padding cs.length) '=') := by
  rw [decodeLenient, decodePadded, any_append_replicate]
  rfl

/-! ### The scan of a text over the alphabet -/

theorem lenientSextet?_character {n : Nat} (h : n < 64) :
    lenientSextet? (character n) = some n := by
  obtain ⟨-, -, -, hplus, hslash⟩ := character_spec h
  rw [lenientSextet?, if_neg hplus, if_neg hslash, sextet?_character h]

theorem scanFrom_map {groups : List Nat} (h : ∀ n ∈ groups, n < 64) (read : List Nat) (count : Nat)
    (rest : List Char) :
    scanFrom read count 0 (groups.map character ++ rest) =
      scanFrom (groups.reverse ++ read) (count + groups.length) 0 rest := by
  induction groups generalizing read count with
  | nil => simp
  | cons n groups ih =>
    rw [List.forall_mem_cons] at h
    rw [List.map_cons, List.cons_append, scanFrom, if_neg (character_spec h.1).2.2.1,
      lenientSextet?_character h.1]
    simp only [ih h.2, List.reverse_cons, List.append_assoc, List.singleton_append,
      List.length_cons, Nat.add_assoc, Nat.add_comm 1]

/-- Padding counts after two or three of the last four characters, until there are four. -/
theorem scanFrom_replicate (read : List Nat) {count pads : Nat} (h : count % 4 + pads < 4)
    (more : Nat) :
    scanFrom read count pads (List.replicate more '=') =
      (read.reverse, decide (2 ≤ count % 4 ∧ 4 ≤ count % 4 + pads + more)) := by
  induction more generalizing pads with
  | zero =>
    have hshort : ¬(2 ≤ count % 4 ∧ 4 ≤ count % 4 + pads + 0) := by omega
    rw [decide_eq_false hshort]
    rfl
  | succ more ih =>
    rw [List.replicate_succ, scanFrom, if_pos rfl]
    split
    · rename_i htwo
      split
      · rename_i hfull
        have henough : 4 ≤ count % 4 + pads + (more + 1) := by omega
        rw [decide_eq_true ⟨htwo, henough⟩]
      · rename_i hshort
        have hcount : count % 4 + (pads + 1) + more = count % 4 + pads + (more + 1) := by omega
        rw [ih (Nat.lt_of_not_le hshort), hcount]
    · rename_i hone
      rw [ih h, decide_eq_false fun hall => hone hall.1, decide_eq_false fun hall => hone hall.1]

theorem decodePadded_map {groups : List Nat} (h : ∀ n ∈ groups, n < 64) (pads : Nat) :
    decodePadded (groups.map character ++ List.replicate pads '=') =
      if groups.length % 4 = 1 then .error (.oneTooMany groups.length)
      else if groups.length % 4 = 0 ∨ 4 ≤ groups.length % 4 + pads then .ok (ofSextets groups)
      else .error .padding := by
  have hascii : (groups.map character).any (fun c => 0x7f < c.toNat) = false := by
    rw [List.any_eq_false]
    intro c hc
    obtain ⟨n, hn, rfl⟩ := List.mem_map.mp hc
    have hlow : (character n).toNat ≤ 0x7f := Nat.le_of_lt_succ (character_spec (h n hn)).1
    simpa using hlow
  have hscan : scanFrom [] 0 0 (groups.map character ++ List.replicate pads '=') =
      (groups, decide (2 ≤ groups.length % 4 ∧ 4 ≤ groups.length % 4 + pads)) := by
    rw [scanFrom_map h, Nat.zero_add, scanFrom_replicate _ (by omega), List.append_nil,
      List.reverse_reverse, Nat.add_zero]
  rw [decodePadded, any_append_replicate, hascii, hscan]
  simp only [Bool.false_eq_true, if_false, Bool.or_eq_true, decide_eq_true_eq]
  by_cases hone : groups.length % 4 = 1
  · have hrefused : ¬((2 ≤ groups.length % 4 ∧ 4 ≤ groups.length % 4 + pads) ∨
        groups.length % 4 = 0) := by omega
    rw [if_neg hrefused, if_pos hone, if_pos hone]
  · have hiff : (2 ≤ groups.length % 4 ∧ 4 ≤ groups.length % 4 + pads) ∨ groups.length % 4 = 0 ↔
        groups.length % 4 = 0 ∨ 4 ≤ groups.length % 4 + pads := by omega
    rw [if_neg hone, if_neg hone]
    simp only [hiff]

theorem decodePadded_padding {groups : List Nat} (h : ∀ n ∈ groups, n < 64)
    (hone : groups.length % 4 ≠ 1) :
    decodePadded (groups.map character ++ List.replicate (padding groups.length) '=') =
      .ok (ofSextets groups) := by
  have hread : groups.length % 4 = 0 ∨ 4 ≤ groups.length % 4 + padding groups.length := by
    rw [padding]
    omega
  rw [decodePadded_map h, if_neg hone, if_pos hread]

theorem decodeLenient_encode (bytes : Bytes) : decodeLenient (encode bytes) = .ok bytes := by
  rw [decodeLenient_eq, encode, List.length_map,
    decodePadded_padding (lt_of_mem_sextets bytes) (length_sextets_mod bytes), ofSextets_sextets]

/-! ### Texts over the alphabet -/

/-- The characters of a text are all of the alphabet. -/
def AreUrlSafe (cs : List Char) : Prop := ∀ c ∈ cs, IsUrlSafe c

instance (cs : List Char) : Decidable (AreUrlSafe cs) := List.decidableBAll _ cs

theorem exists_groups {cs : List Char} (h : AreUrlSafe cs) :
    ∃ groups : List Nat, (∀ n ∈ groups, n < 64) ∧ groups.map character = cs := by
  induction cs with
  | nil => exact ⟨[], nofun, rfl⟩
  | cons c rest ih =>
    obtain ⟨hc, hrest⟩ := List.forall_mem_cons.mp h
    obtain ⟨n, hn, rfl⟩ := isUrlSafe_iff.mp hc
    obtain ⟨groups, hgroups, rfl⟩ := ih hrest
    exact ⟨n :: groups, List.forall_mem_cons.mpr ⟨hn, hgroups⟩, rfl⟩

/-- With so many padding characters the text is read as the bytes, and they complete its last four
characters; with fewer the padding is reported. -/
structure Completes (pads : Nat) (cs : List Char) (bytes : Bytes) : Prop where
  whole : 4 ∣ cs.length + pads
  read : decodePadded (cs ++ List.replicate pads '=') = .ok bytes
  least : ∀ fewer < pads, decodePadded (cs ++ List.replicate fewer '=') = .error .padding

variable {cs : List Char}

/-- No padding makes a text readable that has one character after the last four. -/
theorem decodePadded_of_one (h : AreUrlSafe cs) (hone : cs.length % 4 = 1) (pads : Nat) :
    decodePadded (cs ++ List.replicate pads '=') = .error (.oneTooMany cs.length) := by
  obtain ⟨groups, hgroups, rfl⟩ := exists_groups h
  rw [List.length_map] at hone ⊢
  rw [decodePadded_map hgroups, if_pos hone]

theorem exists_completes (h : AreUrlSafe cs) (hone : cs.length % 4 ≠ 1) :
    ∃ bytes, bytes.length = 3 * cs.length / 4 ∧ Completes (padding cs.length) cs bytes := by
  obtain ⟨groups, hgroups, rfl⟩ := exists_groups h
  rw [List.length_map] at hone ⊢
  refine ⟨ofSextets groups, length_ofSextets groups, ?_, ?_, fun fewer hfewer => ?_⟩
  · rw [List.length_map, padding]
    omega
  · exact decodePadded_padding hgroups hone
  · have hshort : ¬(groups.length % 4 = 0 ∨ 4 ≤ groups.length % 4 + fewer) := by
      rw [padding] at hfewer
      omega
    rw [decodePadded_map hgroups, if_neg hone, if_neg hshort]

end Attest.Base64Url
