import Attest.Bytes

/-! The hash functions SHA-256 and SHA-512, which differ in the size of their words and in numbers
only, and the keyed hash of a message made from one of them. Words are numbers below a power of two. -/

namespace Attest.Crypto

/-- Three amounts by which a word is rotated or shifted. -/
structure Amounts where
  first : Nat
  second : Nat
  third : Nat
  deriving DecidableEq, Repr

/-- A hash function: the bits of a word, the amounts by which words are rotated, the words that it
starts from and the constant of each round. -/
structure Sha2 where
  bits : Nat
  scheduleOld : Amounts
  scheduleNew : Amounts
  roundA : Amounts
  roundE : Amounts
  start : List Nat
  constants : List Nat

/-- The words that a hash function works on. -/
structure Working where
  a : Nat
  b : Nat
  c : Nat
  d : Nat
  e : Nat
  f : Nat
  g : Nat
  h : Nat
  deriving DecidableEq, Repr, Inhabited

namespace Sha2

def rotate (v : Sha2) (x amount : Nat) : Nat :=
  x >>> amount ||| (x % 2 ^ amount) <<< (v.bits - amount)

/-- The exclusive or of a word rotated by three amounts. -/
def rotations (v : Sha2) (m : Amounts) (x : Nat) : Nat :=
  v.rotate x m.first ^^^ v.rotate x m.second ^^^ v.rotate x m.third

/-- The exclusive or of a word rotated by two amounts and shifted by a third. -/
def rotationsAndShift (v : Sha2) (m : Amounts) (x : Nat) : Nat :=
  v.rotate x m.first ^^^ v.rotate x m.second ^^^ x >>> m.third

/-- The next sixteen words of the schedule: the first is dropped and a new one comes last. -/
def advance (v : Sha2) : List Nat → List Nat
  | w :: rest =>
    let old := v.rotationsAndShift v.scheduleOld (rest.getD 0 0)
    let new := v.rotationsAndShift v.scheduleNew (rest.getD 13 0)
    rest ++ [(w + old + rest.getD 8 0 + new) % 2 ^ v.bits]
  | [] => []

/-- One round with a constant and a word of the schedule. -/
def round (v : Sha2) (s : Working) (constant word : Nat) : Working :=
  let choice := (s.e &&& s.f) ^^^ ((2 ^ v.bits - 1 - s.e) &&& s.g)
  let majority := (s.a &&& s.b) ^^^ (s.a &&& s.c) ^^^ (s.b &&& s.c)
  let first := s.h + v.rotations v.roundE s.e + choice + constant + word
  let second := v.rotations v.roundA s.a + majority
  ⟨(first + second) % 2 ^ v.bits, s.a, s.b, s.c, (s.d + first) % 2 ^ v.bits, s.e, s.f, s.g⟩

/-- All rounds, one for each constant, with the words of the schedule from the next one on. -/
def rounds (v : Sha2) (words : List Nat) (s : Working) : List Nat → Working
  | [] => s
  | constant :: rest =>
    v.rounds (v.advance words) (v.round s constant (words.headD 0)) rest

def sum (v : Sha2) (s t : Working) : Working :=
  let add (x y : Nat) : Nat := (x + y) % 2 ^ v.bits
  ⟨add s.a t.a, add s.b t.b, add s.c t.c, add s.d t.d, add s.e t.e, add s.f t.f, add s.g t.g,
    add s.h t.h⟩

/-- The words after a block of sixteen words. -/
def compress (v : Sha2) (s : Working) (block : List Nat) : Working :=
  v.sum s (v.rounds block s v.constants)

def wordBytes (v : Sha2) : Nat := v.bits / 8

def blockBytes (v : Sha2) : Nat := 16 * v.wordBytes

/-- What follows a message of so many bytes: a mark, zeros up to the end of a block, and its length
in bits. -/
def padding (v : Sha2) (length : Nat) : Bytes :=
  let lengthBytes := 2 * v.wordBytes
  let zeros := v.blockBytes - 1 - (length + lengthBytes) % v.blockBytes
  0x80 :: (List.replicate zeros 0 ++ Bytes.ofNat lengthBytes (8 * length))

def words (v : Sha2) (block : Bytes) : List Nat := (blocks v.wordBytes block).map Bytes.toNat

def initial (v : Sha2) : Working :=
  match v.start with
  | [a, b, c, d, e, f, g, h] => ⟨a, b, c, d, e, f, g, h⟩
  | _ => default

def bytes (v : Sha2) (s : Working) : Bytes :=
  [s.a, s.b, s.c, s.d, s.e, s.f, s.g, s.h].flatMap (Bytes.ofNat v.wordBytes)

def hash (v : Sha2) (message : Bytes) : Bytes :=
  let padded := message ++ v.padding message.length
  v.bytes ((blocks v.blockBytes padded).foldl (fun s block => v.compress s (v.words block)) v.initial)

end Sha2

def sha256 : Sha2 where
  bits := 32
  scheduleOld := ⟨7, 18, 3⟩
  scheduleNew := ⟨17, 19, 10⟩
  roundA := ⟨2, 13, 22⟩
  roundE := ⟨6, 11, 25⟩
  start := [
    0x6a09e667, 0xbb67ae85, 0x3c6ef372, 0xa54ff53a, 0x510e527f, 0x9b05688c,
    0x1f83d9ab, 0x5be0cd19]
  constants := [
    0x428a2f98, 0x71374491, 0xb5c0fbcf, 0xe9b5dba5, 0x3956c25b, 0x59f111f1,
    0x923f82a4, 0xab1c5ed5, 0xd807aa98, 0x12835b01, 0x243185be, 0x550c7dc3,
    0x72be5d74, 0x80deb1fe, 0x9bdc06a7, 0xc19bf174, 0xe49b69c1, 0xefbe4786,
    0x0fc19dc6, 0x240ca1cc, 0x2de92c6f, 0x4a7484aa, 0x5cb0a9dc, 0x76f988da,
    0x983e5152, 0xa831c66d, 0xb00327c8, 0xbf597fc7, 0xc6e00bf3, 0xd5a79147,
    0x06ca6351, 0x14292967, 0x27b70a85, 0x2e1b2138, 0x4d2c6dfc, 0x53380d13,
    0x650a7354, 0x766a0abb, 0x81c2c92e, 0x92722c85, 0xa2bfe8a1, 0xa81a664b,
    0xc24b8b70, 0xc76c51a3, 0xd192e819, 0xd6990624, 0xf40e3585, 0x106aa070,
    0x19a4c116, 0x1e376c08, 0x2748774c, 0x34b0bcb5, 0x391c0cb3, 0x4ed8aa4a,
    0x5b9cca4f, 0x682e6ff3, 0x748f82ee, 0x78a5636f, 0x84c87814, 0x8cc70208,
    0x90befffa, 0xa4506ceb, 0xbef9a3f7, 0xc67178f2]

def sha512 : Sha2 where
  bits := 64
  scheduleOld := ⟨1, 8, 7⟩
  scheduleNew := ⟨19, 61, 6⟩
  roundA := ⟨28, 34, 39⟩
  roundE := ⟨14, 18, 41⟩
  start := [
    0x6a09e667f3bcc908, 0xbb67ae8584caa73b, 0x3c6ef372fe94f82b, 0xa54ff53a5f1d36f1,
    0x510e527fade682d1, 0x9b05688c2b3e6c1f, 0x1f83d9abfb41bd6b, 0x5be0cd19137e2179]
  constants := [
    0x428a2f98d728ae22, 0x7137449123ef65cd, 0xb5c0fbcfec4d3b2f, 0xe9b5dba58189dbbc,
    0x3956c25bf348b538, 0x59f111f1b605d019, 0x923f82a4af194f9b, 0xab1c5ed5da6d8118,
    0xd807aa98a3030242, 0x12835b0145706fbe, 0x243185be4ee4b28c, 0x550c7dc3d5ffb4e2,
    0x72be5d74f27b896f, 0x80deb1fe3b1696b1, 0x9bdc06a725c71235, 0xc19bf174cf692694,
    0xe49b69c19ef14ad2, 0xefbe4786384f25e3, 0x0fc19dc68b8cd5b5, 0x240ca1cc77ac9c65,
    0x2de92c6f592b0275, 0x4a7484aa6ea6e483, 0x5cb0a9dcbd41fbd4, 0x76f988da831153b5,
    0x983e5152ee66dfab, 0xa831c66d2db43210, 0xb00327c898fb213f, 0xbf597fc7beef0ee4,
    0xc6e00bf33da88fc2, 0xd5a79147930aa725, 0x06ca6351e003826f, 0x142929670a0e6e70,
    0x27b70a8546d22ffc, 0x2e1b21385c26c926, 0x4d2c6dfc5ac42aed, 0x53380d139d95b3df,
    0x650a73548baf63de, 0x766a0abb3c77b2a8, 0x81c2c92e47edaee6, 0x92722c851482353b,
    0xa2bfe8a14cf10364, 0xa81a664bbc423001, 0xc24b8b70d0f89791, 0xc76c51a30654be30,
    0xd192e819d6ef5218, 0xd69906245565a910, 0xf40e35855771202a, 0x106aa07032bbd1b8,
    0x19a4c116b8d2d0c8, 0x1e376c085141ab53, 0x2748774cdf8eeb99, 0x34b0bcb5e19b48a8,
    0x391c0cb3c5c95a63, 0x4ed8aa4ae3418acb, 0x5b9cca4f7763e373, 0x682e6ff3d6b2b8a3,
    0x748f82ee5defb2fc, 0x78a5636f43172f60, 0x84c87814a1f0ab72, 0x8cc702081a6439ec,
    0x90befffa23631e28, 0xa4506cebde82bde9, 0xbef9a3f7b2c67915, 0xc67178f2e372532b,
    0xca273eceea26619c, 0xd186b8c721c0c207, 0xeada7dd6cde0eb1e, 0xf57d4f7fee6ed178,
    0x06f067aa72176fba, 0x0a637dc5a2c898a6, 0x113f9804bef90dae, 0x1b710b35131c471b,
    0x28db77f523047d84, 0x32caab7b40c72493, 0x3c9ebe0a15c9bebc, 0x431d67c49c100d4c,
    0x4cc5d4becb3e42b6, 0x597f299cfc657e2a, 0x5fcb6fab3ad6faec, 0x6c44198c4a475817]

end Attest.Crypto
