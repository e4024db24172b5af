/-! Lists of bytes: cut into blocks, and read as and made from numbers, the most significant byte
first. -/

namespace Attest

/-- Powers of whole numbers are those of the core library, also where a library is in scope that has
powers of its own. -/
@[default_instance 20000]
instance (priority := 20000) corePow {α : Type} [NatPow α] : Pow α Nat := instPowNat

abbrev Bytes := List UInt8

/-- Cuts a list into blocks of `size` elements, after the blocks `read` (last first); the last block
may be shorter. The fuel bounds the number of blocks. -/
def blocksFrom {α : Type} (size : Nat) (fuel : Nat) (read : List (List α)) (xs : List α) :
    List (List α) :=
  match fuel, xs with
  | _, [] => read.reverse
  | 0, xs => (xs :: read).reverse
  | fuel + 1, xs => blocksFrom size fuel (xs.take size :: read) (xs.drop size)

/-- A list cut into blocks of `size` elements, of which the last may be shorter. -/
def blocks {α : Type} (size : Nat) (xs : List α) : List (List α) :=
  blocksFrom size xs.length [] xs

namespace Bytes

/-- The number that bytes stand for, the first byte being the most significant. -/
def toNat (bytes : Bytes) : Nat := bytes.foldl (fun n b => 256 * n + b.toNat) 0

/-- The `width` low bytes of a number, the most significant one first, and some bytes after them. -/
def ofNatBefore (after : Bytes) : (width n : Nat) → Bytes
  | 0, _ => after
  | width + 1, n => ofNatBefore (UInt8.ofNat n :: after) width (n / 256)

/-- The `width` low bytes of a number, the most significant one first. -/
def ofNat (width n : Nat) : Bytes := ofNatBefore [] width n

def toNatLittle (bytes : Bytes) : Nat := toNat bytes.reverse

def ofNatLittle : (width n : Nat) → Bytes
  | 0, _ => []
  | width + 1, n => UInt8.ofNat n :: ofNatLittle width (n / 256)

theorem ofNatBefore_eq (after : Bytes) (width n : Nat) :
    ofNatBefore after width n = ofNat width n ++ after := by
  induction width generalizing n after with
  | zero => rfl
  | succ width ih =>
    rw [ofNat, ofNatBefore, ofNatBefore, ih, ih [UInt8.ofNat n]]
    simp

theorem ofNat_succ (width n : Nat) :
    ofNat (width + 1) n = ofNat width (n / 256) ++ [UInt8.ofNat n] := by
  rw [ofNat, ofNatBefore, ofNatBefore_eq]

theorem length_ofNat (width n : Nat) : (ofNat width n).length = width := by
  induction width generalizing n with
  | zero => rfl
  | succ width ih => simp [ofNat_succ, ih]

theorem toNat_concat (bytes : Bytes) (b : UInt8) :
    toNat (bytes ++ [b]) = 256 * toNat bytes + b.toNat := by
  simp [toNat]

theorem toNat_ofNat {width n : Nat} (h : n < 256 ^ width) : toNat (ofNat width n) = n := by
  induction width generalizing n with
  | zero => simp [ofNat, ofNatBefore, toNat]; omega
  | succ width ih =>
    have hn : n / 256 < 256 ^ width :=
      Nat.div_lt_of_lt_mul (by rw [Nat.pow_succ, Nat.mul_comm] at h; exact h)
    rw [ofNat_succ, toNat_concat, ih hn]
    simp only [UInt8.toNat_ofNat']
    omega

end Bytes

end Attest
