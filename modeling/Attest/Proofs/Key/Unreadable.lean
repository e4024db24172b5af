import Attest.Key.Jwk
import Attest.Proofs.Run

/-! JSON objects that should be keys and are none. Most of them are reported as bad values; those that
lack a number, or have something else than a text for one, are not. -/

namespace Attest

namespace Jwk

/-- No text stands where a number of a key should. -/
def LacksText (o : Object) (name : String) : Prop := ∀ s, Object.get? o name ≠ some (.text s)

/-- The curve of a key is known, and the first of its numbers that is not read is no text. -/
inductive Unreadable (o : Object) : Prop
  | x (c : Curve) (hcurve : curve o = .ok c) (hx : LacksText o "x")
  | y (x : Bytes) (hcurve : curve o = .ok .p256) (hx : number o "x" = .ok x) (hy : LacksText o "y")

theorem number_eq_error {o : Object} {name : String} {e : KeyError}
    (h : number o name = .error e) : e.kind.isA .badValue = true ∨ LacksText o name := by
  unfold number at h
  split at h
  · rename_i hnone
    exact .inr fun s hs => nomatch hnone.symm.trans hs
  · rename_i v hv
    cases v with
    | text s =>
      obtain ⟨e, -, rfl⟩ := Except.mapError_eq_error_iff.mp h
      exact .inl (by cases e <;> rfl)
    | _ => exact .inr fun s hs => nomatch hv.symm.trans hs

theorem number_of_lacksText {o : Object} {name : String} (h : LacksText o name) :
    ∃ e, number o name = .error e ∧ e.kind.isA .badValue = false := by
  unfold number
  cases hv : Object.get? o name with
  | none => exact ⟨_, rfl, rfl⟩
  | some v =>
    cases v with
    | text s => exact absurd hv (h s)
    | _ => exact ⟨_, rfl, rfl⟩

theorem curve_eq_error {o : Object} {e : KeyError} (h : curve o = .error e) :
    e.kind.isA .badValue = true := by
  unfold curve at h
  split at h
  · cases h
  · cases h
  · obtain rfl := Except.error.inj h
    rfl

theorem point_eq_error {x y : Bytes} {e : KeyError} (h : point x y = .error e) :
    e.kind.isA .badValue = true := by
  unfold point at h
  split at h
  · cases h
  · obtain rfl := Except.error.inj h
    rfl

end Jwk

namespace PublicKey

open Jwk

/-- An object that is no key is reported as a bad value, unless a text is missing. -/
theorem ofJwk_eq_error {o : Object} {e : KeyError} (h : ofJwk (.object o) = .error e) :
    e.kind.isA .badValue = true ∨ Unreadable o := by
  unfold ofJwk at h
  change (Jwk.curve o >>= _) = _ at h
  rw [Except.bind_eq_error_iff] at h
  rcases h with h | ⟨c, hc, h⟩
  · exact .inl (curve_eq_error h)
  cases c with
  | p256 =>
    simp only [Except.bind_eq_error_iff] at h
    rcases h with h | ⟨x, hx, h | ⟨y, hy, h | ⟨k, hk, h⟩⟩⟩
    · exact (number_eq_error h).imp_right (.x .p256 hc)
    · exact (number_eq_error h).imp_right (.y x hc hx)
    · exact .inl (point_eq_error h)
    · cases h
  | ed25519 =>
    simp only [Except.bind_eq_error_iff] at h
    rcases h with h | ⟨x, hx, h⟩
    · exact (number_eq_error h).imp_right (.x .ed25519 hc)
    · split at h
      · cases h
      · obtain rfl := Except.error.inj h
        exact .inl rfl

theorem ofJwk_of_unreadable {o : Object} (h : Unreadable o) :
    ∃ e, ofJwk (.object o) = .error e ∧ e.kind.isA .badValue = false := by
  unfold ofJwk
  change ∃ e, (Jwk.curve o >>= _) = Except.error e ∧ _
  cases h with
  | x c hcurve hx =>
    obtain ⟨e, he, hkind⟩ := number_of_lacksText hx
    refine ⟨e, Except.bind_eq_error_iff.mpr (.inr ⟨c, hcurve, ?_⟩), hkind⟩
    cases c with
    | p256 => exact Except.bind_eq_error_iff.mpr (.inl he)
    | ed25519 => exact Except.bind_eq_error_iff.mpr (.inl he)
  | y x hcurve hx hy =>
    obtain ⟨e, he, hkind⟩ := number_of_lacksText hy
    refine ⟨e, Except.bind_eq_error_iff.mpr (.inr ⟨.p256, hcurve, ?_⟩), hkind⟩
    exact Except.bind_eq_error_iff.mpr (.inr ⟨x, hx, Except.bind_eq_error_iff.mpr (.inl he)⟩)

end PublicKey

end Attest
