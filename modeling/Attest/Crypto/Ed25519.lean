import Attest.Crypto.Modular
import Attest.Crypto.Sha2

/-! Signatures with the twisted Edwards curve of the prime `2 ^ 255 - 19` and SHA-512. -/

namespace Attest.Crypto.Ed25519

/-- The prime of the field of coordinates. -/
def prime : Nat := 2 ^ 255 - 19

/-- The number of multiples of the base point. -/
def order : Nat := 2 ^ 252 + 27742317777372353535851937790883648493

/-- The constant of the equation `y ^ 2 - x ^ 2 = 1 + constant * x ^ 2 * y ^ 2`. -/
def constant : Nat := 37095705934669439343138083508754565189542113879843219016388785533085940283555

/-- A point of the curve in projective coordinates, with `t` the product of `x` and `y`. -/
structure Point where
  x : Nat
  y : Nat
  z : Nat
  t : Nat
  deriving DecidableEq, Repr

namespace Point

def neutral : Point := ⟨0, 1, 1, 0⟩

/-- The sum of two points, by formulas that hold for all pairs of points. -/
def add (p q : Point) : Point :=
  let a := Modular.sub prime p.y p.x * Modular.sub prime q.y q.x % prime
  let b := (p.y + p.x) * (q.y + q.x) % prime
  let c := 2 * constant * p.t * q.t % prime
  let d := 2 * p.z * q.z % prime
  let e := Modular.sub prime b a
  let f := Modular.sub prime d c
  let g := (d + c) % prime
  let h := (b + a) % prime
  ⟨e * f % prime, g * h % prime, f * g % prime, e * h % prime⟩

def negate (p : Point) : Point := ⟨Modular.sub prime 0 p.x, p.y, p.z, Modular.sub prime 0 p.t⟩

def multiply (n : Nat) (p : Point) : Point := repeated add neutral p n

def ofCoordinates (x y : Nat) : Point := ⟨x, y, 1, x * y % prime⟩

def base : Point :=
  ofCoordinates 15112221349535400772501151409588531511454012693041857206046113283949847762202
    46316835694926478169428394003475163141307993866256225615783033603165251855960

/-- A point as 32 bytes: the coordinate `y` with the parity of `x` in the highest bit. -/
def encode (p : Point) : Bytes :=
  let inverse := Modular.inverse prime p.z
  let x := p.x * inverse % prime
  let y := p.y * inverse % prime
  Bytes.ofNatLittle 32 (y + x % 2 * 2 ^ 255)

/-- A square root modulo the prime of the quotient of two numbers. -/
def rootOfQuotient? (u v : Nat) : Option Nat :=
  let power := Modular.pow prime (u * Modular.pow prime v 7) ((prime - 5) / 8)
  let root := u * Modular.pow prime v 3 * power % prime
  let square := v * root * root % prime
  if square = u % prime then some root
  else if square = Modular.sub prime 0 (u % prime) then
    some (root * Modular.pow prime 2 ((prime - 1) / 4) % prime)
  else none

def decode? (bytes : Bytes) : Option Point := do
  let n := bytes.toNatLittle
  let y := n % 2 ^ 255 % prime
  let u := Modular.sub prime (y * y % prime) 1
  let v := (constant * y * y + 1) % prime
  let root ← rootOfQuotient? u v
  let x := if root % 2 = n / 2 ^ 255 then root else Modular.sub prime 0 root
  return ofCoordinates x y

end Point

/-- A public key: any 32 bytes. -/
structure PublicKey where
  bytes : Bytes
  length_eq : bytes.length = 32
  deriving DecidableEq, Repr

def PublicKey.of? (bytes : Bytes) : Option PublicKey :=
  if h : bytes.length = 32 then some ⟨bytes, h⟩ else none

/-- A private key: any 32 bytes. -/
structure PrivateKey where
  seed : Bytes
  length_eq : seed.length = 32
  deriving DecidableEq, Repr

namespace PrivateKey

def of? (seed : Bytes) : Option PrivateKey :=
  if h : seed.length = 32 then some ⟨seed, h⟩ else none

/-- The secret multiplier: the first half of the hash of the seed with its highest bits and its
lowest bits fixed. -/
def scalar (k : PrivateKey) : Nat :=
  let n := (Bytes.toNatLittle ((sha512.hash k.seed).take 32))
  n % 2 ^ 254 / 8 * 8 + 2 ^ 254

/-- What messages are hashed with to draw a nonce: the second half of the hash of the seed. -/
def nonceKey (k : PrivateKey) : Bytes := (sha512.hash k.seed).drop 32

end PrivateKey

theorem Point.length_encode (p : Point) : p.encode.length = 32 := by
  simp only [Point.encode]
  generalize (_ + _ : Nat) = n
  rfl

def PrivateKey.publicKey (k : PrivateKey) : PublicKey :=
  ⟨(Point.base.multiply k.scalar).encode, Point.length_encode _⟩

/-- The number that the hash of bytes is reduced to. -/
def challenge (bytes : Bytes) : Nat := (sha512.hash bytes).toNatLittle % order

/-- The signature of a message: a point and a number of 32 bytes each. -/
def sign (key : PrivateKey) (message : Bytes) : Bytes :=
  let nonce := challenge (key.nonceKey ++ message)
  let point := (Point.base.multiply nonce).encode
  let k := challenge (point ++ key.publicKey.bytes ++ message)
  point ++ Bytes.ofNatLittle 32 ((nonce + k * key.scalar) % order)

def verify (key : PublicKey) (message signature : Bytes) : Bool :=
  let point := signature.take 32
  let s := Bytes.toNatLittle (signature.drop 32)
  if signature.length = 64 && s < order then
    match Point.decode? key.bytes with
    | some a =>
      let k := challenge (point ++ key.bytes ++ message)
      -- The point in the signature is compared as bytes and never decoded.
      ((Point.base.multiply s).add (a.negate.multiply k)).encode == point
    | none => false
  else false

end Attest.Crypto.Ed25519
