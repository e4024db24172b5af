import Attest.Key.Jwk
import Attest.Proofs.Run

/-! What a JSON object says when a key is read from it: which of its numbers are looked at, and how they
make the key. -/

namespace Attest

namespace Crypto

theorem Ed25519.PublicKey.of?_eq_some_iff {bytes : Bytes} {key : PublicKey} :
    of? bytes = some key ↔ key.bytes = bytes := by
  rw [of?, Option.dite_none_right_eq_some]
  constructor
  · rintro ⟨_, ⟨⟩⟩
    rfl
  · rintro rfl
    exact ⟨key.length_eq, rfl⟩

theorem Ed25519.PrivateKey.of?_eq_some_iff {seed : Bytes} {key : PrivateKey} :
    of? seed = some key ↔ key.seed = seed := by
  rw [of?, Option.dite_none_right_eq_some]
  constructor
  · rintro ⟨_, ⟨⟩⟩
    rfl
  · rintro rfl
    exact ⟨key.length_eq, rfl⟩

theorem P256.PrivateKey.of?_eq_some_iff {scalar : Nat} {publicKey : PublicKey} {key : PrivateKey} :
    of? scalar publicKey = some key ↔ key.scalar = scalar ∧ key.publicKey = publicKey := by
  rw [of?, Option.dite_none_right_eq_some]
  constructor
  · rintro ⟨_, ⟨⟩⟩
    exact ⟨rfl, rfl⟩
  · rintro ⟨rfl, rfl⟩
    exact ⟨key.isPair, rfl⟩

end Crypto

/-- The object says what a public key is. -/
inductive PublicKey.SaidBy (o : Object) : PublicKey → Prop
  | p256 {x y : Bytes} {key : Crypto.P256.PublicKey} (hcurve : Jwk.curve o = .ok .p256)
      (hx : Jwk.number o "x" = .ok x) (hy : Jwk.number o "y" = .ok y)
      (hpoint : Jwk.point x y = .ok key) : SaidBy o (.p256 key)
  | ed25519 {key : Crypto.Ed25519.PublicKey} (hcurve : Jwk.curve o = .ok .ed25519)
      (hx : Jwk.number o "x" = .ok key.bytes) : SaidBy o (.ed25519 key)

/-- The object says what a private key is: the public number of an Ed25519 key plays no part. -/
inductive PrivateKey.SaidBy (o : Object) : PrivateKey → Prop
  | p256 {x y d : Bytes} {key : Crypto.P256.PrivateKey} (hcurve : Jwk.curve o = .ok .p256)
      (hx : Jwk.number o "x" = .ok x) (hy : Jwk.number o "y" = .ok y)
      (hd : Jwk.number o "d" = .ok d) (hpoint : Jwk.point x y = .ok key.publicKey)
      (hscalar : key.scalar = d.toNat) : SaidBy o (.p256 key)
  | ed25519 {key : Crypto.Ed25519.PrivateKey} (hcurve : Jwk.curve o = .ok .ed25519)
      (hd : Jwk.number o "d" = .ok key.seed) : SaidBy o (.ed25519 key)

theorem Jwk.members_eq_ok_iff {v : Value} {o : Object} : members v = .ok o ↔ v = .object o := by
  cases v <;> simp [members]

theorem PublicKey.ofJwk_eq_ok_iff {v : Value} {key : PublicKey} :
    ofJwk v = .ok key ↔ ∃ o, v = .object o ∧ SaidBy o key := by
  unfold ofJwk
  simp only [Except.bind_eq_ok_iff, Jwk.members_eq_ok_iff]
  refine exists_congr fun o => and_congr_right fun _ => ?_
  constructor
  · rintro ⟨c, hcurve, h⟩
    cases c with
    | p256 =>
      simp only [Except.bind_eq_ok_iff] at h
      obtain ⟨x, hx, y, hy, k, hk, h⟩ := h
      obtain rfl := Except.ok.inj h
      exact .p256 hcurve hx hy hk
    | ed25519 =>
      obtain ⟨x, hx, h⟩ := Except.bind_eq_ok_iff.mp h
      split at h
      · rename_i k hk
        obtain rfl := Except.ok.inj h
        obtain rfl := Crypto.Ed25519.PublicKey.of?_eq_some_iff.mp hk
        exact .ed25519 hcurve hx
      · cases h
  · rintro (⟨hcurve, hx, hy, hpoint⟩ | @⟨k, hcurve, hx⟩)
    · refine ⟨_, hcurve, ?_⟩
      simp only [Except.bind_eq_ok_iff]
      exact ⟨_, hx, _, hy, _, hpoint, rfl⟩
    · refine ⟨_, hcurve, Except.bind_eq_ok_iff.mpr ⟨_, hx, ?_⟩⟩
      simp only [Crypto.Ed25519.PublicKey.of?_eq_some_iff.mpr (rfl : k.bytes = _)]
      rfl

theorem PrivateKey.ofJwk_eq_ok_iff {v : Value} {key : PrivateKey} :
    ofJwk v = .ok key ↔ ∃ o, v = .object o ∧ SaidBy o key := by
  unfold ofJwk
  simp only [Except.bind_eq_ok_iff, Jwk.members_eq_ok_iff]
  refine exists_congr fun o => and_congr_right fun _ => ?_
  constructor
  · rintro ⟨c, hcurve, h⟩
    cases c with
    | p256 =>
      simp only [Except.bind_eq_ok_iff] at h
      obtain ⟨x, hx, y, hy, d, hd, p, hp, h⟩ := h
      split at h
      · rename_i k hk
        obtain rfl := Except.ok.inj h
        obtain ⟨hscalar, rfl⟩ := Crypto.P256.PrivateKey.of?_eq_some_iff.mp hk
        exact .p256 hcurve hx hy hd hp hscalar
      · cases h
    | ed25519 =>
      obtain ⟨d, hd, h⟩ := Except.bind_eq_ok_iff.mp h
      split at h
      · rename_i k hk
        obtain rfl := Except.ok.inj h
        obtain rfl := Crypto.Ed25519.PrivateKey.of?_eq_some_iff.mp hk
        exact .ed25519 hcurve hd
      · cases h
  · rintro (⟨hcurve, hx, hy, hd, hpoint, hscalar⟩ | @⟨k, hcurve, hd⟩)
    · refine ⟨_, hcurve, ?_⟩
      simp only [Except.bind_eq_ok_iff]
      refine ⟨_, hx, _, hy, _, hd, _, hpoint, ?_⟩
      simp only [Crypto.P256.PrivateKey.of?_eq_some_iff.mpr ⟨hscalar, rfl⟩]
      rfl
    · refine ⟨_, hcurve, Except.bind_eq_ok_iff.mpr ⟨_, hd, ?_⟩⟩
      simp only [Crypto.Ed25519.PrivateKey.of?_eq_some_iff.mpr (rfl : k.seed = _)]
      rfl

/-- A secret number that does not belong to the point is refused. -/
theorem PrivateKey.ofJwk_of_mismatch {o : Object} {publicKey : Crypto.P256.PublicKey} {d : Bytes}
    (hpublic : PublicKey.SaidBy o (.p256 publicKey)) (hd : Jwk.number o "d" = .ok d)
    (hother : Crypto.P256.PublicKey.ofScalar? d.toNat ≠ some publicKey) :
    ofJwk (.object o) = .error .invalid := by
  cases hpublic with
  | p256 hcurve hx hy hpoint =>
    have hnone : Crypto.P256.PrivateKey.of? d.toNat publicKey = none := dif_neg hother
    refine Except.bind_eq_error_iff.mpr (.inr ⟨o, rfl, Except.bind_eq_error_iff.mpr
      (.inr ⟨_, hcurve, ?_⟩)⟩)
    simp only [Except.bind_eq_error_iff]
    refine .inr ⟨_, hx, .inr ⟨_, hy, .inr ⟨_, hd, .inr ⟨_, hpoint, ?_⟩⟩⟩⟩
    simp only [hnone]
    rfl

end Attest
