import Attest.Crypto.P256
import Attest.Proofs.Codec.Base58
import Attest.Proofs.Crypto.Modular
import Mathlib.FieldTheory.Finite.Basic

/-! Points of P-256 in compressed form are read back: the prime of the field is one more than twice an
odd number, so a power gives a square root, and of the two roots the parity tells the right one. -/

namespace Attest.Crypto.P256

/-- Certificates up to that of the prime of the field, the last one. -/
def primeCertificates : List Certificate :=
  [⟨3, 2, [(2, 1)]⟩, ⟨5, 2, [(2, 2)]⟩, ⟨17, 3, [(2, 4)]⟩, ⟨257, 3, [(2, 8)]⟩,
   ⟨641, 3, [(2, 7), (5, 1)]⟩, ⟨1531, 2, [(2, 1), (3, 2), (5, 1), (17, 1)]⟩, ⟨65537, 3, [(2, 16)]⟩,
   ⟨241, 7, [(2, 4), (3, 1), (5, 1)]⟩, ⟨2411, 6, [(2, 1), (5, 1), (241, 1)]⟩,
   ⟨11, 2, [(2, 1), (5, 1)]⟩, ⟨23, 5, [(2, 1), (11, 1)]⟩, ⟨7, 3, [(2, 1), (3, 1)]⟩,
   ⟨757, 2, [(2, 2), (3, 3), (7, 1)]⟩, ⟨18169, 11, [(2, 3), (3, 1), (757, 1)]⟩,
   ⟨181, 2, [(2, 2), (3, 2), (5, 1)]⟩, ⟨1087, 3, [(2, 1), (3, 1), (181, 1)]⟩,
   ⟨4349, 2, [(2, 2), (1087, 1)]⟩, ⟨78283, 3, [(2, 1), (3, 2), (4349, 1)]⟩,
   ⟨13, 2, [(2, 2), (3, 1)]⟩, ⟨313, 10, [(2, 3), (3, 1), (13, 1)]⟩,
   ⟨704251, 2, [(2, 1), (3, 2), (5, 3), (313, 1)]⟩,
   ⟨46076956964474543, 5, [(2, 1), (23, 1), (18169, 1), (78283, 1), (704251, 1)]⟩,
   ⟨53, 2, [(2, 2), (13, 1)]⟩, ⟨43, 3, [(2, 1), (3, 1), (7, 1)]⟩, ⟨173, 2, [(2, 2), (43, 1)]⟩,
   ⟨197, 2, [(2, 2), (7, 2)]⟩, ⟨919, 7, [(2, 1), (3, 3), (17, 1)]⟩, ⟨3677, 2, [(2, 2), (919, 1)]⟩,
   ⟨66417393611, 6, [(2, 1), (5, 1), (53, 1), (173, 1), (197, 1), (3677, 1)]⟩,
   ⟨11290956913871, 13, [(2, 1), (5, 1), (17, 1), (66417393611, 1)]⟩, ⟨107, 2, [(2, 1), (53, 1)]⟩,
   ⟨157, 5, [(2, 2), (3, 1), (13, 1)]⟩, ⟨3769, 7, [(2, 3), (3, 1), (157, 1)]⟩,
   ⟨204061199, 11, [(2, 1), (11, 1), (23, 1), (107, 1), (3769, 1)]⟩,
   ⟨34282281433, 17, [(2, 3), (3, 1), (7, 1), (204061199, 1)]⟩,
   ⟨774023187263532362759620327192479577272145303, 3,
     [(2, 1), (3, 2), (2411, 1), (34282281433, 1), (11290956913871, 1), (46076956964474543, 1)]⟩,
   ⟨835945042244614951780389953367877943453916927241, 11,
     [(2, 3), (3, 3), (5, 1), (774023187263532362759620327192479577272145303, 1)]⟩,
   ⟨727, 5, [(2, 1), (3, 1), (11, 2)]⟩, ⟨17449, 14, [(2, 3), (3, 1), (727, 1)]⟩,
   ⟨6700417, 5, [(2, 7), (3, 1), (17449, 1)]⟩, ⟨661, 2, [(2, 2), (3, 1), (5, 1), (11, 1)]⟩,
   ⟨490463, 14, [(2, 1), (7, 1), (53, 1), (661, 1)]⟩,
   ⟨115792089210356248762697446949407573530086143415290314195533631308867097853951, 6,
     [(2, 1), (3, 1), (5, 2), (17, 1), (257, 1), (641, 1), (1531, 1), (65537, 1), (490463, 1),
      (6700417, 1), (835945042244614951780389953367877943453916927241, 1)]⟩]

theorem prime_isPrime : prime.Prime := by
  have hpass : Certificate.allPass [2] primeCertificates = true := by decide +kernel
  have hmem : (primeCertificates.any fun c => c.number == prime) = true := rfl
  obtain ⟨c, hc, hnumber⟩ := List.any_eq_true.mp hmem
  rw [← beq_iff_eq.mp hnumber]
  exact Certificate.prime_of_allPass (by simpa using Nat.prime_two) hpass c hc

instance : Fact prime.Prime := ⟨prime_isPrime⟩

theorem prime_add_one : (prime + 1) / 4 * 4 = prime + 1 := rfl

theorem pow_mul_self_sq (y : ZMod prime) (k : Nat) : ((y * y) ^ k) ^ 2 = y ^ (k * 4) := by ring

/-- The power that gives square roots gives one of the two roots of a square. -/
theorem root_of_square {y : Nat} (hy : y < prime) :
    Modular.pow prime (y * y % prime) ((prime + 1) / 4) = y ∨
      Modular.pow prime (y * y % prime) ((prime + 1) / 4) + y = prime := by
  have hroot : Modular.pow prime (y * y % prime) ((prime + 1) / 4) < prime := by
    rw [Modular.pow_eq]
    exact Nat.mod_lt _ prime_isPrime.pos
  have hcast : ((Modular.pow prime (y * y % prime) ((prime + 1) / 4) : Nat) : ZMod prime) ^ 2 =
      (y : ZMod prime) ^ 2 := by
    calc ((Modular.pow prime (y * y % prime) ((prime + 1) / 4) : Nat) : ZMod prime) ^ 2
      _ = (((y : ZMod prime) * y) ^ ((prime + 1) / 4)) ^ 2 := by
        rw [Modular.pow_eq]
        simp
      _ = (y : ZMod prime) ^ ((prime + 1) / 4 * 4) := pow_mul_self_sq _ _
      _ = (y : ZMod prime) ^ 2 := by
        -- By Fermat's little theorem the power with the exponent `prime` is the number itself.
        rw [prime_add_one, pow_succ, ZMod.pow_card, sq]
  generalize Modular.pow prime (y * y % prime) ((prime + 1) / 4) = root at hroot hcast ⊢
  rcases sq_eq_sq_iff_eq_or_eq_neg.mp hcast with heq | hneg
  · left
    rw [ZMod.natCast_eq_natCast_iff', Nat.mod_eq_of_lt hroot, Nat.mod_eq_of_lt hy] at heq
    exact heq
  · -- Both roots are below the prime, so of its multiples their sum is zero or the prime itself.
    have hsum : ((root + y : Nat) : ZMod prime) = 0 := by
      rw [Nat.cast_add, hneg, neg_add_cancel]
    obtain ⟨k, hk⟩ := (ZMod.natCast_eq_zero_iff _ _).mp hsum
    have hk2 : k < 2 := by
      by_contra hlarge
      have := Nat.mul_le_mul_left prime (Nat.le_of_not_lt hlarge)
      omega
    interval_cases k <;> omega

theorem prime_odd : prime % 2 = 1 := rfl

namespace PublicKey

theorem of?_self (key : PublicKey) : of? key.x key.y = some key := dif_pos key.onCurve

theorem bounds (key : PublicKey) : key.x < prime ∧ key.y < prime := by
  have hcurve := key.onCurve
  simp only [isOnCurve, Bool.and_eq_true, decide_eq_true_eq] at hcurve
  exact hcurve.1

theorem prime_lt_pow : prime < 256 ^ 32 := by decide

theorem toNat_x (key : PublicKey) : Bytes.toNat (Bytes.ofNat 32 key.x) = key.x :=
  Bytes.toNat_ofNat (Nat.lt_trans key.bounds.1 prime_lt_pow)

theorem toNat_y (key : PublicKey) : Bytes.toNat (Bytes.ofNat 32 key.y) = key.y :=
  Bytes.toNat_ofNat (Nat.lt_trans key.bounds.2 prime_lt_pow)

/-- The coordinate `x` and the parity of `y` tell a point. -/
theorem ofX?_self (key : PublicKey) : ofX? (key.y % 2 == 1) key.x = some key := by
  have hcurve := key.onCurve
  simp only [isOnCurve, Bool.and_eq_true, beq_iff_eq] at hcurve
  have hequation := hcurve.2
  have hy := key.bounds.2
  have hodd := prime_odd
  have hy' : (if (Modular.pow prime (key.y * key.y % prime) ((prime + 1) / 4) % 2 == 1) ==
      (key.y % 2 == 1) then Modular.pow prime (key.y * key.y % prime) ((prime + 1) / 4)
      else prime - Modular.pow prime (key.y * key.y % prime) ((prime + 1) / 4)) = key.y := by
    rcases root_of_square hy with hroot | hroot
    · rw [hroot, if_pos (by simp)]
    · generalize Modular.pow prime (key.y * key.y % prime) ((prime + 1) / 4) = root at hroot ⊢
      rw [if_neg]
      · omega
      · rw [beq_iff_eq, Bool.eq_iff_iff, beq_iff_eq, beq_iff_eq]
        omega
  rw [ofX?, ← hequation]
  simp only [hy', of?_self]

/-- A point is read back from its compressed form. -/
theorem ofBytes_compressed (key : PublicKey) : ofBytes key.compressed = .ok key := by
  have hself := ofX?_self key
  rw [compressed, ofBytes]
  simp only [Bytes.length_ofNat, toNat_x, if_true]
  rcases Nat.mod_two_eq_zero_or_one key.y with hparity | hparity
  · rw [hparity] at hself ⊢
    rw [show ((0 : Nat) == 1) = false from rfl] at hself
    simp [hself]
  · rw [hparity] at hself ⊢
    rw [beq_self_eq_true] at hself
    simp [hself]

end PublicKey

end Attest.Crypto.P256
