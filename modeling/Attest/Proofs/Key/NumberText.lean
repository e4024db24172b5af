import Attest.Error
import Attest.Key.Jwk
import Attest.Proofs.Codec.Padding
import Attest.Proofs.Run

/-! The texts that stand for the numbers of keys. Bytes are written over the alphabet, with four
characters for three bytes, and are read back. Of the texts over the alphabet those are refused that have
one character after the last four, and the padding that is restored for the others is the one that they
need. -/

namespace Attest.Base64Url

theorem ofValue_text (bytes : Bytes) : ofValue (.text (text bytes)) = .ok bytes := by
  rw [ofValue, text, String.toList_ofList, decodeLenient_encode]
  rfl

theorem text_injective : Function.Injective text := by
  intro a b h
  have hread := ofValue_text b
  rw [← h, ofValue_text a] at hread
  exact Except.ok.inj hread

theorem areUrlSafe_text (bytes : Bytes) : AreUrlSafe (text bytes).toList := by
  rw [text, String.toList_ofList]
  exact isUrlSafe_encode bytes

theorem length_text (bytes : Bytes) : (text bytes).length = (4 * bytes.length + 2) / 3 := by
  rw [text, String.length_ofList, length_encode]

theorem ofValue_eq (s : String) :
    ofValue (.text s) =
      (decodePadded (s.toList ++ List.replicate (padding s.length) '=')).mapError .base64 := by
  rw [ofValue, decodeLenient_eq, String.length_toList]

variable {s : String}

theorem ofValue_of_one (h : AreUrlSafe s.toList) (hone : s.length % 4 = 1) :
    ofValue (.text s) = .error (.base64 (.oneTooMany s.length)) := by
  rw [← String.length_toList] at hone
  rw [ofValue_eq, decodePadded_of_one h hone, String.length_toList]
  rfl

theorem exists_ofValue (h : AreUrlSafe s.toList) (hone : s.length % 4 ≠ 1) :
    ∃ bytes, ofValue (.text s) = .ok bytes ∧ bytes.length = 3 * s.length / 4 ∧
      Completes (padding s.length) s.toList bytes := by
  rw [← String.length_toList] at hone
  obtain ⟨bytes, hlength, hcompletes⟩ := exists_completes h hone
  rw [String.length_toList] at hlength hcompletes
  refine ⟨bytes, ?_, hlength, hcompletes⟩
  rw [ofValue_eq, hcompletes.read]
  rfl

theorem length_mod_of_error (h : AreUrlSafe s.toList) {e : KeyError}
    (he : ofValue (.text s) = .error e) : s.length % 4 = 1 := by
  refine Decidable.byContradiction fun hone => ?_
  obtain ⟨bytes, hread, -⟩ := exists_ofValue h hone
  cases he.symm.trans hread

/-- Bytes are written over the alphabet, with four characters for three bytes rounded up, and are read
back; different bytes are written differently. A text over the alphabet is refused exactly if it has one
character after the last four, as a text of the wrong form, and no padding would help. Every other one is
read as three bytes for four characters, rounded down, with the padding that completes it. -/
theorem written_and_read :
    (∀ bytes : Bytes, AreUrlSafe (text bytes).toList ∧
        (text bytes).length = (4 * bytes.length + 2) / 3 ∧ ofValue (.text (text bytes)) = .ok bytes) ∧
      Function.Injective text ∧
      ∀ s : String, AreUrlSafe s.toList →
        ofValue (.text s) =
            (decodePadded (s.toList ++ List.replicate (padding s.length) '=')).mapError .base64 ∧
          ((∃ e, ofValue (.text s) = .error e) ↔ s.length % 4 = 1) ∧
          (∀ e, ofValue (.text s) = .error e → e.kind = .base64 ∧ e.kind.isA .badValue = true ∧
            ∀ pads, decodePadded (s.toList ++ List.replicate pads '=') =
              .error (.oneTooMany s.length)) ∧
          (s.length % 4 ≠ 1 → ∃ bytes, ofValue (.text s) = .ok bytes ∧
            bytes.length = 3 * s.length / 4 ∧ Completes (padding s.length) s.toList bytes) := by
  refine ⟨fun bytes => ⟨areUrlSafe_text bytes, length_text bytes, ofValue_text bytes⟩, text_injective,
    fun s h => ⟨ofValue_eq s, ⟨?_, fun hone => ⟨_, ofValue_of_one h hone⟩⟩, fun e he => ?_,
      exists_ofValue h⟩⟩
  · rintro ⟨e, he⟩
    exact length_mod_of_error h he
  · have hone := length_mod_of_error h he
    obtain rfl := Except.error.inj (he.symm.trans (ofValue_of_one h hone))
    rw [← String.length_toList] at hone ⊢
    exact ⟨rfl, rfl, decodePadded_of_one h hone⟩

/-- Two bytes are written as three characters, which one padding character completes. Five characters
are refused. -/
theorem written_and_read_short :
    (∃ bytes, ofValue (.text "__8") = .ok bytes ∧ bytes.length = 2 ∧
        Completes 1 "__8".toList bytes) ∧
      ∃ e, ofValue (.text "AAAAA") = .error e ∧ e.kind = .base64 := by
  obtain ⟨-, -, hread⟩ := written_and_read
  obtain ⟨-, -, -, hcompletes⟩ := hread "__8" (by decide)
  obtain ⟨-, hrefused, hkind, -⟩ := hread "AAAAA" (by decide)
  obtain ⟨e, he⟩ := hrefused.mpr (by decide)
  exact ⟨hcompletes (by decide), e, he, (hkind e he).1⟩

end Attest.Base64Url
