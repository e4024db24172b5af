import Attest.Bytes
import Attest.Crypto.Modular
import Mathlib.NumberTheory.LucasPrimality

/-! Powers modulo a number by repeated squaring, and certificates of primality that are checked with
them: the prime factors of `p - 1`, each certified before, and an element whose order is `p - 1`. -/

namespace Attest.Crypto

namespace Modular

/-- The step that takes one more binary digit of an exponent. -/
def powStep (m a : Nat) (power : Nat) (bit : Bool) : Nat :=
  if bit then power * power % m * (a % m) % m else power * power % m

theorem powStep_pow (m a n : Nat) (bit : Bool) :
    powStep m a (a ^ n % m) bit = a ^ (2 * n + if bit then 1 else 0) % m := by
  have hsquare : a ^ n % m * (a ^ n % m) % m = a ^ (2 * n) % m := by
    rw [← Nat.mul_mod, ← Nat.pow_add, Nat.two_mul]
  cases bit with
  | true => simp only [powStep, hsquare, if_true, ← Nat.mul_mod, ← Nat.pow_succ]
  | false => simp only [powStep, hsquare, Bool.false_eq_true, if_false, Nat.add_zero]

theorem foldl_powStep {fuel n : Nat} (m a : Nat) (after : List Bool) (h : n < 2 ^ fuel) :
    (bitsBefore after fuel n).foldl (powStep m a) (1 % m) =
      after.foldl (powStep m a) (a ^ n % m) := by
  induction fuel generalizing n after with
  | zero =>
    obtain rfl : n = 0 := by simpa using h
    rw [bitsBefore, Nat.pow_zero]
  | succ fuel ih =>
    by_cases hn : n = 0
    · rw [hn, bitsBefore, if_pos rfl, Nat.pow_zero]
    · have hhalf : n / 2 < 2 ^ fuel :=
        Nat.div_lt_of_lt_mul (by rwa [Nat.pow_succ, Nat.mul_comm] at h)
      have hbit : 2 * (n / 2) + (if (n % 2 == 1) = true then 1 else 0) = n := by
        by_cases hodd : n % 2 = 1
        · simp only [hodd, beq_self_eq_true, if_true]
          omega
        · simp only [hodd, beq_iff_eq, if_false]
          omega
      rw [bitsBefore, if_neg hn, ih _ hhalf, List.foldl_cons, powStep_pow, hbit]

/-- Repeated squaring gives the power. -/
theorem pow_eq (m a n : Nat) : pow m a n = a ^ n % m :=
  foldl_powStep m a [] Nat.lt_log2_self

end Modular

/-- A number with the prime factors of its predecessor, each with its exponent, and an element that
generates the units. -/
structure Certificate where
  number : Nat
  generator : Nat
  factors : List (Nat × Nat)

namespace Certificate

/-- The generator has the order that a prime number asks for, and the factors are among the numbers
that are `known` to be prime. -/
def passes (known : List Nat) (c : Certificate) : Bool :=
  decide (2 ≤ c.number) && c.factors.all (fun f => known.contains f.1) &&
    (c.factors.map fun f => f.1 ^ f.2).prod == c.number - 1 &&
    Modular.pow c.number c.generator (c.number - 1) == 1 &&
    c.factors.all fun f => Modular.pow c.number c.generator ((c.number - 1) / f.1) != 1

/-- Each of some certificates passes, the numbers of those before it being known. -/
def allPass : (known : List Nat) → List Certificate → Bool
  | _, [] => true
  | known, c :: rest => c.passes known && allPass (c.number :: known) rest

theorem cast_pow_eq_one_iff {p : Nat} (hp : 2 ≤ p) (a n : Nat) :
    (a : ZMod p) ^ n = 1 ↔ Modular.pow p a n = 1 := by
  rw [Modular.pow_eq, ← Nat.cast_pow, ← Nat.cast_one, ZMod.natCast_eq_natCast_iff',
    Nat.one_mod_eq_one.mpr (by omega)]

theorem prime_of_passes {known : List Nat} {c : Certificate} (hknown : ∀ q ∈ known, q.Prime)
    (h : c.passes known = true) : c.number.Prime := by
  simp only [passes, Bool.and_eq_true, decide_eq_true_eq, List.all_eq_true, List.contains_iff_mem,
    beq_iff_eq, bne_iff_ne] at h
  obtain ⟨⟨⟨⟨hp, hfactors⟩, hproduct⟩, hone⟩, horder⟩ := h
  refine lucas_primality c.number (c.generator : ZMod c.number)
    ((cast_pow_eq_one_iff hp _ _).mpr hone) fun q hq hdvd => ?_
  rw [← hproduct] at hdvd
  obtain ⟨power, hpower, hqpower⟩ := (Prime.dvd_prod_iff hq.prime).mp hdvd
  obtain ⟨f, hf, rfl⟩ := List.mem_map.mp hpower
  have hprime := hknown _ (hfactors f hf)
  obtain rfl : q = f.1 := (Nat.prime_dvd_prime_iff_eq hq hprime).mp (hq.dvd_of_dvd_pow hqpower)
  rw [ne_eq, cast_pow_eq_one_iff hp]
  exact horder f hf

/-- The numbers of certificates that pass one after the other are prime. -/
theorem prime_of_allPass {known : List Nat} {cs : List Certificate}
    (hknown : ∀ q ∈ known, q.Prime) (h : allPass known cs = true) :
    ∀ c ∈ cs, c.number.Prime := by
  induction cs generalizing known with
  | nil => nofun
  | cons c rest ih =>
    rw [allPass, Bool.and_eq_true] at h
    have hc := prime_of_passes hknown h.1
    exact List.forall_mem_cons.mpr ⟨hc, ih (List.forall_mem_cons.mpr ⟨hc, hknown⟩) h.2⟩

end Certificate

end Attest.Crypto
