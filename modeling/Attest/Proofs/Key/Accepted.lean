import Attest.Error
import Attest.Proofs.Codec.Digits
import Attest.Proofs.Key.Identifier

/-! Identifiers that are accepted as keys. After the scheme they have digits of base 58 and, at the end,
blanks, so nothing in them separates further parts; all others are reported as bad values. -/

namespace Attest

/-- What separates the parts of an identifier is neither a digit nor blank. -/
theorem Base58.ne_of_decode {cs : List Char} {bytes : Bytes} (h : decode cs = .ok bytes) :
    ∀ c ∈ cs, c ≠ '#' ∧ c ≠ ':' := by
  obtain ⟨blanks, hblanks, rfl⟩ := decode_eq_ok_iff.mp h
  intro c hc
  rcases List.mem_append.mp hc with hdigit | hblank
  · exact (isDigitChar_encode bytes c hdigit).2.2
  · constructor <;> rintro rfl <;> exact absurd (hblanks _ hblank) (by decide)

namespace DidKey

theorem keyOfBytes_eq_error {bytes : Bytes} {e : KeyError} (h : keyOfBytes bytes = .error e) :
    e.kind = .badValue := by
  unfold keyOfBytes at h
  repeat' split at h
  all_goals cases h
  all_goals rfl

theorem ofMultibase_eq_error {cs : List Char} {e : KeyError} (h : ofMultibase cs = .error e) :
    e.kind.isA .badValue = true := by
  unfold ofMultibase at h
  split at h
  · split at h
    · rw [keyOfBytes_eq_error h]
      rfl
    · cases h
      rename_i e _
      cases e <;> rfl
  · cases h
    rfl

theorem decode_eq_error {did : String} {e : KeyError} (h : decode did = .error e) :
    e.kind.isA .badValue = true := by
  unfold decode at h
  split at h
  · exact ofMultibase_eq_error h
  · cases h
    rfl

theorem ne_of_ofMultibase {cs : List Char} {key : PublicKey} (h : ofMultibase cs = .ok key) :
    ∀ c ∈ cs, c ≠ '#' ∧ c ≠ ':' := by
  unfold ofMultibase at h
  split at h
  · rename_i rest
    cases hbytes : Base58.decode rest with
    | error e =>
      rw [hbytes] at h
      cases h
    | ok bytes => exact List.forall_mem_cons.mpr ⟨by decide, Base58.ne_of_decode hbytes⟩
  · cases h

theorem ne_of_mem_withoutFragment {did : String} : ∀ c ∈ (withoutFragment did).toList, c ≠ '#' := by
  intro c hc
  rw [withoutFragment, String.toList_ofList] at hc
  simpa using List.mem_takeWhile_imp hc

theorem takeWhile_scheme (rest : List Char) :
    (scheme.toList ++ rest).takeWhile (· != '#') = scheme.toList ++ rest.takeWhile (· != '#') :=
  List.takeWhile_append_of_pos fun c hc => bne_iff_ne.mpr (scheme_spec c hc).1

/-- An identifier is accepted if, up to a number sign, it is the scheme followed by a key in base 58. -/
theorem decode_eq_ok_iff {did : String} {key : PublicKey} :
    decode did = .ok key ↔
      ∃ part, withoutFragment did = scheme ++ String.ofList part ∧ ofMultibase part = .ok key := by
  have hchars : ∀ part, withoutFragment did = scheme ++ String.ofList part ↔
      did.toList.takeWhile (· != '#') = scheme.toList ++ part := by
    intro part
    rw [← String.toList_inj, withoutFragment, String.toList_ofList, String.toList_append,
      String.toList_ofList]
  simp only [hchars]
  constructor
  · intro h
    unfold decode at h
    split at h
    · rename_i rest hrest
      refine ⟨_, ?_, h⟩
      rw [Text.after?_eq_some_iff.mp hrest, takeWhile_scheme]
    · cases h
  · rintro ⟨part, hpart, hkey⟩
    have hdid : did.toList = scheme.toList ++ (part ++ did.toList.dropWhile (· != '#')) := by
      rw [← List.append_assoc, ← hpart, List.takeWhile_append_dropWhile]
    have hafter := Text.after?_eq_some_iff.mpr hdid
    generalize part ++ did.toList.dropWhile (· != '#') = rest at hdid hafter
    rw [hdid, takeWhile_scheme, List.append_cancel_left_eq] at hpart
    subst hpart
    unfold decode
    rw [hafter]
    exact hkey

/-- An identifier that is accepted is the scheme followed by one part. -/
theorem exists_part_of_decode {did : String} {key : PublicKey}
    (h : decode (withoutFragment did) = .ok key) :
    ∃ part, withoutFragment did = scheme ++ part ∧ IsPart part := by
  obtain ⟨part, hpart, hkey⟩ := decode_eq_ok_iff.mp h
  rw [withoutFragment_of_forall_ne ne_of_mem_withoutFragment] at hpart
  refine ⟨String.ofList part, hpart, ?_⟩
  unfold IsPart
  rw [String.toList_ofList]
  exact ne_of_ofMultibase hkey

end DidKey

end Attest
