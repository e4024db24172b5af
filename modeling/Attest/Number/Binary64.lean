import Attest.Bytes

/-! Binary floating point numbers of 64 bits. A finite number is a sign and a whole number of units of
`2 ^ -1074`, so every operation is exact arithmetic on whole numbers followed by one rounding to the
nearest representable number, a tie going to the even neighbour. -/

namespace Attest

/-- A floating point number of 64 bits; all values that are not numbers are one. -/
inductive Binary64 where
  | nan
  | infinity (negative : Bool)
  | finite (negative : Bool) (exponent : Fin 2047) (fraction : Fin (2 ^ 52))
  deriving DecidableEq, Repr

/-- The quotient of `n` by `d`, rounded to the nearest whole number, a tie to the even one. -/
def roundHalfEven (n d : Nat) : Nat :=
  let q := n / d
  let r := n % d
  if 2 * r < d then q else if d < 2 * r then q + 1 else q + q % 2

theorem roundHalfEven_mul {d : Nat} (n : Nat) (h : 0 < d) : roundHalfEven (n * d) d = n := by
  simp [roundHalfEven, Nat.mul_div_cancel n h, h]

namespace Binary64

instance : Inhabited Binary64 := ⟨finite false 0 0⟩

def unitsPerOne : Nat := 2 ^ 1074

/-- The magnitude of a finite number in units. -/
def units : Binary64 → Nat
  | nan => 0
  | infinity _ => 0
  | finite _ e f => if e.val = 0 then f.val else (2 ^ 52 + f.val) * 2 ^ (e.val - 1)

def isNegative : Binary64 → Bool
  | nan => false
  | infinity s => s
  | finite s _ _ => s

def isFinite : Binary64 → Bool
  | finite _ _ _ => true
  | _ => false

/-- The number of a sign and a magnitude of at most 53 significant bits, infinite when no finite
number is that large. -/
def ofUnits (negative : Bool) (n : Nat) : Binary64 :=
  if n < 2 ^ 52 then finite negative 0 (Fin.ofNat (2 ^ 52) n)
  else
    let shift := n.log2 - 52
    if h : shift + 1 < 2047 then
      finite negative ⟨shift + 1, h⟩ (Fin.ofNat (2 ^ 52) (n / 2 ^ shift))
    else infinity negative

/-- The number nearest to the fraction `n / d`, with the given sign. -/
def round (negative : Bool) (n d : Nat) : Binary64 :=
  let scaled := n * unitsPerOne
  let shift := (scaled / d).log2 - 52
  ofUnits negative (roundHalfEven scaled (d * 2 ^ shift) * 2 ^ shift)

def ofInt (i : Int) : Binary64 := round (decide (i < 0)) i.natAbs 1

/-- The number nearest to `coefficient * 10 ^ exponent`, with the given sign. -/
def ofDecimal (negative : Bool) (coefficient : Nat) (exponent : Int) : Binary64 :=
  -- An exponent far out of range decides alone, so that its power need not be formed.
  if coefficient = 0 then finite negative 0 0
  else if 400 < exponent then infinity negative
  else if 0 ≤ exponent then round negative (coefficient * 10 ^ exponent.toNat) 1
  else if exponent + coefficient.log2 < -400 then finite negative 0 0
  else round negative coefficient (10 ^ (-exponent).toNat)

def signedUnits (x : Binary64) : Int := if x.isNegative then -(x.units : Int) else x.units

def add : Binary64 → Binary64 → Binary64
  | nan, _ => nan
  | _, nan => nan
  | infinity s, infinity t => if s = t then infinity s else nan
  | infinity s, finite _ _ _ => infinity s
  | finite _ _ _, infinity t => infinity t
  | x@(finite s _ _), y@(finite t _ _) =>
    let sum := x.signedUnits + y.signedUnits
    -- A sum of zero is negative only if both numbers are.
    if sum = 0 then finite (s && t) 0 0 else round (decide (sum < 0)) sum.natAbs unitsPerOne

/-- Why a number has no whole part. -/
inductive NoInteger where
  | nan
  | infinity
  deriving DecidableEq, Repr

def NoInteger.message : NoInteger → String
  | .nan => "cannot convert float NaN to integer"
  | .infinity => "cannot convert float infinity to integer"

/-- The whole part of a number, its fraction being dropped. -/
def truncate : Binary64 → Except NoInteger Int
  | nan => .error .nan
  | infinity _ => .error .infinity
  | x@(finite s _ _) =>
    let whole : Int := (x.units / unitsPerOne : Nat)
    .ok (if s then -whole else whole)

def isNonzero : Binary64 → Bool
  | nan => true
  | infinity _ => true
  | x@(finite _ _ _) => x.units != 0

def equalsInt (x : Binary64) (i : Int) : Bool :=
  x.isFinite && x.signedUnits == i * unitsPerOne

/-- The numbers are equal; zero equals `-0`, and what is not a number equals nothing. -/
def equals : Binary64 → Binary64 → Bool
  | infinity s, infinity t => s == t
  | x@(finite _ _ _), y@(finite _ _ _) => x.signedUnits == y.signedUnits
  | _, _ => false

end Binary64

/-- A whole number or a floating point number. -/
inductive Number where
  | int (i : Int)
  | float (x : Binary64)
  deriving DecidableEq, Repr

namespace Number

instance : Inhabited Number := ⟨int 0⟩

/-- The floating point number nearest to a number, unless the number is whole and too large for
one. -/
def toBinary64? : Number → Option Binary64
  | int i => if (Binary64.ofInt i).isFinite then some (Binary64.ofInt i) else none
  | float x => some x

/-- The sum of two numbers, whole if both are. -/
def add? : Number → Number → Option Number
  | int i, int j => some (int (i + j))
  -- A whole number that is too large for a floating point number has no sum with one.
  | x, y => do return float ((← x.toBinary64?).add (← y.toBinary64?))

/-- The signed number of units of a number other than an infinity. -/
def signedUnits : Number → Int
  | int i => i * Binary64.unitsPerOne
  | float x => x.signedUnits

/-- The first number is at most the second; what is not a number compares with nothing. -/
def le : Number → Number → Bool
  | float .nan, _ => false
  | _, float .nan => false
  | float (.infinity true), _ => true
  | _, float (.infinity false) => true
  | float (.infinity false), _ => false
  | _, float (.infinity true) => false
  | x, y => decide (x.signedUnits ≤ y.signedUnits)

def isPositive : Number → Bool
  | int i => decide (0 < i)
  | float .nan => false
  | float (.infinity s) => !s
  | float x => decide (0 < x.signedUnits)

def truncate : Number → Except Binary64.NoInteger Int
  | int i => .ok i
  | float x => x.truncate

end Number

end Attest
