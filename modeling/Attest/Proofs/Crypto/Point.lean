import Attest.Proofs.Crypto.P256

/-! The bytes that stand for a point of P-256: both coordinates in full, or one with the parity of the
other. No other bytes are read. -/

namespace Attest.Crypto.P256

namespace PublicKey

/-- The key as both coordinates after a byte that says so. -/
def uncompressed (k : PublicKey) : Bytes := 4 :: (Bytes.ofNat 32 k.x ++ Bytes.ofNat 32 k.y)

theorem of?_eq_some_iff {x y : Nat} {k : PublicKey} : of? x y = some k ↔ k.x = x ∧ k.y = y := by
  constructor
  · intro h
    unfold of? at h
    split at h
    · obtain rfl := Option.some.inj h
      exact ⟨rfl, rfl⟩
    · cases h
  · rintro ⟨rfl, rfl⟩
    exact of?_self k

/-- A point is found from one coordinate and the parity of the other exactly if it has both. -/
theorem ofX?_eq_some_iff {odd : Bool} {x : Nat} {k : PublicKey} :
    ofX? odd x = some k ↔ k.x = x ∧ (k.y % 2 == 1) = odd := by
  constructor
  · intro h
    unfold ofX? at h
    obtain ⟨hx, hy⟩ := of?_eq_some_iff.mp h
    have hroot : Modular.pow prime ((x * x * x + (prime - 3) * x + constant) % prime)
        ((prime + 1) / 4) < prime := by
      rw [Modular.pow_eq]
      exact Nat.mod_lt _ prime_isPrime.pos
    generalize Modular.pow prime _ _ = root at hy hroot
    refine ⟨hx, ?_⟩
    split at hy
    · rename_i hparity
      rw [hy]
      exact beq_iff_eq.mp hparity
    · -- The other root has the other parity, the prime being odd.
      rename_i hparity
      have hodd := prime_odd
      have hbound := k.bounds.2
      have hother : k.y % 2 = 1 ↔ ¬root % 2 = 1 := by omega
      cases odd <;> simp_all
  · rintro ⟨rfl, rfl⟩
    exact ofX?_self k

theorem ofBytes_uncompressed (k : PublicKey) : ofBytes k.uncompressed = .ok k := by
  rw [uncompressed, ofBytes]
  simp [Bytes.length_ofNat, toNat_x, toNat_y, of?_self]

theorem ofNat_of_length {bytes : Bytes} (h : bytes.length = 32) :
    Bytes.ofNat 32 bytes.toNat = bytes := by
  rw [← h, Bytes.ofNat_toNat]

theorem uncompressed_of_of? {rest : Bytes} {k : PublicKey} (hlength : rest.length = 64)
    (h : of? (Bytes.toNat (rest.take 32)) (Bytes.toNat (rest.drop 32)) = some k) :
    4 :: rest = k.uncompressed := by
  obtain ⟨hx, hy⟩ := of?_eq_some_iff.mp h
  have hfront : (rest.take 32).length = 32 := by simp [hlength]
  have hback : (rest.drop 32).length = 32 := by simp [hlength]
  rw [uncompressed, hx, hy, ofNat_of_length hfront, ofNat_of_length hback, List.take_append_drop]

theorem compressed_of_ofX? {first : UInt8} {rest : Bytes} {k : PublicKey}
    (hfirst : first = 2 ∨ first = 3) (hlength : rest.length = 32)
    (h : ofX? (first == 3) (Bytes.toNat rest) = some k) : first :: rest = k.compressed := by
  obtain ⟨hx, hparity⟩ := ofX?_eq_some_iff.mp h
  rw [compressed, hx, ofNat_of_length hlength]
  rcases hfirst with rfl | rfl
  · have heven : k.y % 2 = 0 := by
      have : ¬k.y % 2 = 1 := fun hone => by simp [hone] at hparity
      omega
    rw [heven]
    rfl
  · have hone : k.y % 2 = 1 := by simpa using hparity
    rw [hone]
    rfl

/-- The bytes of a key are its coordinates in full, or one of them with the parity of the other. -/
theorem ofBytes_eq_ok_iff {bytes : Bytes} {k : PublicKey} :
    ofBytes bytes = .ok k ↔ bytes = k.compressed ∨ bytes = k.uncompressed := by
  constructor
  · intro h
    cases bytes with
    | nil => cases h
    | cons first rest =>
      rw [ofBytes] at h
      split at h
      case isFalse => cases h
      rename_i hfirst
      split at h
      case h_2 => cases h
      rename_i found hfound
      obtain rfl := Except.ok.inj h
      split at hfound
      case isTrue hfour =>
        split at hfound
        case isFalse => cases hfound
        case isTrue hlength => exact .inr (hfour ▸ uncompressed_of_of? hlength hfound)
      case isFalse hfour =>
        split at hfound
        case isFalse => cases hfound
        case isTrue hlength =>
          have htwo : first = 2 ∨ first = 3 := by simpa [hfour] using hfirst
          exact .inl (compressed_of_ofX? htwo hlength hfound)
  · rintro (rfl | rfl)
    · exact ofBytes_compressed k
    · exact ofBytes_uncompressed k

/-- The key whose point is the base point. -/
def base : PublicKey := ⟨Point.base.x, Point.base.y, rfl⟩

end PublicKey

namespace PrivateKey

/-- The private key with the secret number 1. -/
def one : PrivateKey := ⟨1, .base, by decide +kernel⟩

/-- A private key with the same point, whose secret number does not fit in 32 bytes. -/
def wide : PrivateKey := ⟨1 + 2 * order, .base, by decide +kernel⟩

end PrivateKey

/-- The signatures for which the same nonce is drawn each time. -/
def Signatures.ofNonce (nonce : Nat) : Signatures := fun key message =>
  (signature? key nonce message).getD []

end Attest.Crypto.P256
