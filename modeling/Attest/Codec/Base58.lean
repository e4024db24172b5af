import Attest.Bytes
import Attest.Text.Classes
import Attest.Text.Encoding
import Attest.Text.Quoted

/-! The encoding of bytes as a number in base 58 whose digits avoid characters that look alike. Each
zero byte at the start, which the number would lose, is written as one more digit zero. -/

namespace Attest.Base58

/-- The digits, from zero on. -/
def alphabet : List Char := "123456789ABCDEFGHJKLMNPQRSTUVWXYZabcdefghijkmnopqrstuvwxyz".toList

def digit (n : Nat) : Char := alphabet.getD n '1'

def value? (c : Char) : Option Nat := alphabet.findIdx? (· == c)

/-- The digits of a number without zeros at the start, followed by the digits `after`; the fuel
bounds their number. -/
def digitsBefore (after : List Char) : (fuel n : Nat) → List Char
  | 0, _ => after
  | fuel + 1, n => if n = 0 then after else digitsBefore (digit (n % 58) :: after) fuel (n / 58)

def encode (bytes : Bytes) : List Char :=
  let zeros := bytes.takeWhile (· == 0)
  zeros.map (fun _ => digit 0) ++ digitsBefore [] (2 * bytes.length) bytes.toNat

/-- Why a text stands for no bytes. -/
inductive DecodeError where
  | notAscii (e : Text.AsciiError)
  | notDigit (c : Char)
  deriving DecidableEq, Repr

def DecodeError.message : DecodeError → String
  | notAscii e => e.message
  | notDigit c => "Invalid character " ++ Text.quote (String.singleton c)

/-- The number that digits after those of `n` stand for. -/
def numberFrom (n : Nat) : List Char → Except DecodeError Nat
  | [] => .ok n
  | c :: rest =>
    match value? c with
    | some d => numberFrom (58 * n + d) rest
    | none => .error (.notDigit c)

/-- The number of bytes that a number fills. -/
def byteLength (n : Nat) : Nat := if n = 0 then 0 else n.log2 / 8 + 1

/-- The bytes that a text stands for; blanks at its end do not count. -/
def decode (cs : List Char) : Except DecodeError Bytes :=
  let cs := Text.stripEnd cs
  match Text.ascii cs with
  | .error e => .error (.notAscii e)
  | .ok _ =>
    let zeros := cs.takeWhile (· == digit 0)
    match numberFrom 0 (cs.dropWhile (· == digit 0)) with
    | .error e => .error e
    | .ok n => .ok (zeros.map (fun _ => 0) ++ Bytes.ofNat (byteLength n) n)

end Attest.Base58
