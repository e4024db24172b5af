import Attest.Crypto.Modular
import Attest.Crypto.Sha2

/-! The elliptic curve P-256: its points, the keys made of them, and signatures with the curve and
SHA-256. A signature is a function of the key, the message and a nonce, and the nonce comes from
outside. -/

namespace Attest.Crypto.P256

/-- The prime of the field of coordinates. -/
def prime : Nat := 2 ^ 256 - 2 ^ 224 + 2 ^ 192 + 2 ^ 96 - 1

/-- The number of multiples of the base point. -/
def order : Nat := 0xffffffff00000000ffffffffffffffffbce6faada7179e84f3b9cac2fc632551

/-- The constant of the equation `y ^ 2 = x ^ 3 - 3 * x + constant`. -/
def constant : Nat := 0x5ac635d8aa3a93e7b3ebbd55769886bc651d06b0cc53b0f63bce3c3e27d2604b

/-- Coordinates below the prime that satisfy the equation of the curve. -/
def isOnCurve (x y : Nat) : Bool :=
  x < prime && y < prime && y * y % prime == (x * x * x + (prime - 3) * x + constant) % prime

/-- A point of the curve in projective coordinates; the point at infinity has `z = 0`. -/
structure Point where
  x : Nat
  y : Nat
  z : Nat
  deriving DecidableEq, Repr

namespace Point

def infinity : Point := ⟨0, 1, 0⟩

def base : Point :=
  ⟨0x6b17d1f2e12c4247f8bce6e563a440f277037d812deb33a0f4a13945d898c296,
    0x4fe342e2fe1a7f9b8ee7eb4a7c0f9e162bce33576b315ececbb6406837bf51f5, 1⟩

/-- The sum of two points, by formulas that hold for all pairs of points. -/
def add (p q : Point) : Point :=
  let xx := p.x * q.x % prime
  let yy := p.y * q.y % prime
  let zz := p.z * q.z % prime
  let xy := (p.x * q.y + q.x * p.y) % prime
  let xz := (p.x * q.z + q.x * p.z) % prime
  let yz := (p.y * q.z + q.y * p.z) % prime
  let s := Modular.sub prime (constant * zz % prime) xz
  let t := Modular.sub prime (constant * xz % prime) ((xx + 3 * zz) % prime)
  let u := Modular.sub prime (3 * xx % prime) (3 * zz % prime)
  let minus := Modular.sub prime yy (3 * s % prime)
  let plus := (yy + 3 * s) % prime
  ⟨Modular.sub prime (xy * minus % prime) (3 * yz * t % prime),
    (plus * minus + 3 * u * t) % prime,
    (yz * plus + xy * u) % prime⟩

def multiply (n : Nat) (p : Point) : Point := repeated add infinity p n

/-- The coordinates of a point other than the one at infinity. -/
def coordinates? (p : Point) : Option (Nat × Nat) :=
  if p.z = 0 then none
  else
    let inverse := Modular.inverse prime p.z
    some (p.x * inverse % prime, p.y * inverse % prime)

end Point

/-- A public key: a point of the curve other than the one at infinity. -/
structure PublicKey where
  x : Nat
  y : Nat
  onCurve : isOnCurve x y = true
  deriving DecidableEq, Repr

namespace PublicKey

def of? (x y : Nat) : Option PublicKey :=
  if h : isOnCurve x y then some ⟨x, y, h⟩ else none

def point (k : PublicKey) : Point := ⟨k.x, k.y, 1⟩

/-- The key that belongs to a secret multiple of the base point. -/
def ofScalar? (scalar : Nat) : Option PublicKey := do
  let (x, y) ← (Point.base.multiply scalar).coordinates?
  of? x y

/-- The key as the number `x` after a byte that tells the parity of `y`. -/
def compressed (k : PublicKey) : Bytes := UInt8.ofNat (2 + k.y % 2) :: Bytes.ofNat 32 k.x

/-- The key with coordinate `x` and the parity of `y`, if there is one. -/
def ofX? (odd : Bool) (x : Nat) : Option PublicKey :=
  let root := Modular.pow prime ((x * x * x + (prime - 3) * x + constant) % prime) ((prime + 1) / 4)
  of? x (if (root % 2 == 1) == odd then root else prime - root)

end PublicKey

/-- Why bytes are no point of the curve. -/
inductive PointError where
  | empty
  | form
  | point
  deriving DecidableEq, Repr

/-- The key that bytes stand for: both coordinates after a byte 4, or one after the parity of the
other. -/
def PublicKey.ofBytes : Bytes → Except PointError PublicKey
  | [] => .error .empty
  | first :: rest =>
    let key? :=
      if first = 4 then
        if rest.length = 64 then of? (Bytes.toNat (rest.take 32)) (Bytes.toNat (rest.drop 32)) else none
      else if rest.length = 32 then ofX? (first == 3) (Bytes.toNat rest) else none
    if first = 2 || first = 3 || first = 4 then
      match key? with
      | some k => .ok k
      | none => .error .point
    else .error .form

/-- A private key: a secret number and the public key that belongs to it. -/
structure PrivateKey where
  scalar : Nat
  publicKey : PublicKey
  isPair : PublicKey.ofScalar? scalar = some publicKey
  deriving DecidableEq, Repr

namespace PrivateKey

def of? (scalar : Nat) (publicKey : PublicKey) : Option PrivateKey :=
  if h : PublicKey.ofScalar? scalar = some publicKey then some ⟨scalar, publicKey, h⟩ else none

end PrivateKey

/-- The number that a message is reduced to before it is signed. -/
def digest (message : Bytes) : Nat := (sha256.hash message).toNat

/-- The signature of a message that a nonce gives, two numbers of 32 bytes, unless one of them is
zero. -/
def signature? (key : PrivateKey) (nonce : Nat) (message : Bytes) : Option Bytes := do
  if nonce = 0 || order ≤ nonce then none
  let (x, _) ← (Point.base.multiply nonce).coordinates?
  let r := x % order
  let s := Modular.inverse order nonce * ((digest message + r * key.scalar) % order) % order
  if r = 0 || s = 0 then none
  return Bytes.ofNat 32 r ++ Bytes.ofNat 32 s

/-- The bytes that a library gives for the signature of a message under a key. They depend on a nonce that
it draws at random, so what is said of signed tokens is said for every such function. -/
abbrev Signatures := PrivateKey → (message : Bytes) → Bytes

def verify (key : PublicKey) (message signature : Bytes) : Bool :=
  let r := Bytes.toNat (signature.take 32)
  let s := Bytes.toNat (signature.drop 32)
  if signature.length = 64 && 0 < r && r < order && 0 < s && s < order then
    let w := Modular.inverse order s
    let sum := (Point.base.multiply (digest message * w % order)).add
      (key.point.multiply (r * w % order))
    match sum.coordinates? with
    | some (x, _) => x % order == r
    | none => false
  else false

end Attest.Crypto.P256
