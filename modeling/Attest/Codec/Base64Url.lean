import Attest.Bytes

/-! The encoding of bytes by 64 characters that are safe in web addresses, each for six bits. Three
bytes become four characters; one or two bytes at the end become two or three, without padding. One
reader accepts only what the writer makes, a lenient one also other forms of the same data. -/

namespace Attest.Base64Url

/-- The character of six bits. -/
def character (n : Nat) : Char :=
  if n < 26 then Char.ofNat (0x41 + n)
  else if n < 52 then Char.ofNat (0x61 + (n - 26))
  else if n < 62 then Char.ofNat (0x30 + (n - 52))
  else if n = 62 then '-' else '_'

/-- The six bits of a character of the alphabet. -/
def sextet? (c : Char) : Option Nat :=
  if 'A' ≤ c && c ≤ 'Z' then some (c.toNat - 0x41)
  else if 'a' ≤ c && c ≤ 'z' then some (c.toNat - 0x61 + 26)
  else if '0' ≤ c && c ≤ '9' then some (c.toNat - 0x30 + 52)
  else if c = '-' then some 62
  else if c = '_' then some 63
  else none

/-- The bits of bytes in groups of six, after the groups `read` (last first); zeros fill the last
group. -/
def sextetsFrom (read : List Nat) : Bytes → List Nat
  | [] => read.reverse
  | [a] =>
    let a := a.toNat
    (a % 4 * 16 :: a / 4 :: read).reverse
  | [a, b] =>
    let a := a.toNat
    let b := b.toNat
    (b % 16 * 4 :: (a % 4 * 16 + b / 16) :: a / 4 :: read).reverse
  | a :: b :: c :: rest =>
    let a := a.toNat
    let b := b.toNat
    let c := c.toNat
    sextetsFrom (c % 64 :: (b % 16 * 4 + c / 64) :: (a % 4 * 16 + b / 16) :: a / 4 :: read) rest

def sextets (bytes : Bytes) : List Nat := sextetsFrom [] bytes

/-- The bytes of groups of six bits, after the bytes `read` (last first); bits that fill no byte are
dropped. -/
def bytesFrom (read : Bytes) : List Nat → Bytes
  | a :: b :: c :: d :: rest =>
    bytesFrom (UInt8.ofNat (c % 4 * 64 + d) :: UInt8.ofNat (b % 16 * 16 + c / 4) ::
      UInt8.ofNat (a * 4 + b / 16) :: read) rest
  | [a, b, c] => (UInt8.ofNat (b % 16 * 16 + c / 4) :: UInt8.ofNat (a * 4 + b / 16) :: read).reverse
  | [a, b] => (UInt8.ofNat (a * 4 + b / 16) :: read).reverse
  | _ => read.reverse

def ofSextets (groups : List Nat) : Bytes := bytesFrom [] groups

def encode (bytes : Bytes) : List Char := (sextets bytes).map character

/-- The groups of six bits of a text over the alphabet, after the groups `read` (last first). -/
def sextetsOfCharsFrom (read : List Nat) : List Char → Option (List Nat)
  | [] => some read.reverse
  | c :: rest =>
    match sextet? c with
    | some n => sextetsOfCharsFrom (n :: read) rest
    | none => none

/-- The bytes that are written as these characters. -/
def decode? (cs : List Char) : Option Bytes :=
  match sextetsOfCharsFrom [] cs with
  | none => none
  | some groups =>
    let bytes := ofSextets groups
    -- The bits that fill no byte must be zero.
    if sextets bytes = groups then some bytes else none

/-- Why a text stands for no bytes even for the lenient reader. -/
inductive LenientError where
  | notAscii
  | oneTooMany (characters : Nat)
  | padding
  deriving DecidableEq, Repr

def LenientError.message : LenientError → String
  | notAscii => "string argument should contain only ASCII characters"
  | oneTooMany characters =>
    s!"Invalid base64-encoded string: number of data characters ({characters}) " ++
      "cannot be 1 more than a multiple of 4"
  | padding => "Incorrect padding"

/-- The six bits of a character of this alphabet or of the usual one, which has `+` and `/` for `-`
and `_`. -/
def lenientSextet? (c : Char) : Option Nat :=
  if c = '+' then some 62 else if c = '/' then some 63 else sextet? c

/-- What a lenient reader takes from a text: the groups of six bits up to the padding that completes
four characters, if there is such padding, and whether there is. Groups `read` (last first), `count`
in number, and `pads` padding characters after them have been read. -/
def scanFrom (read : List Nat) (count pads : Nat) : List Char → List Nat × Bool
  | [] => (read.reverse, false)
  | c :: rest =>
    if c = '=' then
      -- Padding counts after two or three of four characters, and is passed over elsewhere.
      if 2 ≤ count % 4 then
        if 4 ≤ count % 4 + (pads + 1) then (read.reverse, true)
        else scanFrom read count (pads + 1) rest
      else scanFrom read count pads rest
    else
      match lenientSextet? c with
      | some n => scanFrom (n :: read) (count + 1) 0 rest
      | none => scanFrom read count pads rest

/-- The bytes that a text stands for when characters outside the alphabet are dropped. -/
def decodeLenient (cs : List Char) : Except LenientError Bytes :=
  if cs.any fun c => 0x7f < c.toNat then .error .notAscii
  else
    let padded := cs ++ List.replicate ((4 - cs.length % 4) % 4) '='
    let (groups, complete) := scanFrom [] 0 0 padded
    if complete || groups.length % 4 = 0 then .ok (ofSextets groups)
    else if groups.length % 4 = 1 then .error (.oneTooMany groups.length)
    else .error .padding

end Attest.Base64Url
