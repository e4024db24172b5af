/-! Hexadecimal numerals in lower case: numbers with a fixed least width, and bytes in pairs. -/

namespace Attest.Text

def hexDigit (n : Nat) : Char := Nat.digitChar n

/-- The numeral of `n` in base sixteen, filled with zeros on the left up to `width` digits. -/
def hex (width n : Nat) : List Char :=
  let digits := Nat.toDigits 16 n
  List.replicate (width - digits.length) '0' ++ digits

/-- The value of a hexadecimal digit, in either case. -/
def hexValue? (c : Char) : Option Nat :=
  if '0' ≤ c && c ≤ '9' then some (c.toNat - 0x30)
  else if 'a' ≤ c && c ≤ 'f' then some (c.toNat - 0x57)
  else if 'A' ≤ c && c ≤ 'F' then some (c.toNat - 0x37)
  else none

def hexBytes (bytes : List UInt8) : List Char :=
  bytes.flatMap fun b => [hexDigit (b.toNat / 16), hexDigit (b.toNat % 16)]

/-- The bytes that pairs of hexadecimal digits stand for. -/
def bytesOfHex? : List Char → Option (List UInt8)
  | [] => some []
  | h :: l :: rest => do
    let high ← hexValue? h
    let low ← hexValue? l
    return UInt8.ofNat (16 * high + low) :: (← bytesOfHex? rest)
  | [_] => none

theorem hexValue?_hexDigit {n : Nat} (h : n < 16) : hexValue? (hexDigit n) = some n := by
  have : ∀ m : Fin 16, hexValue? (hexDigit m) = some m.val := by decide
  exact this ⟨n, h⟩

theorem bytesOfHex?_hexBytes (bytes : List UInt8) : bytesOfHex? (hexBytes bytes) = some bytes := by
  induction bytes with
  | nil => rfl
  | cons b bytes ih =>
    have hb : b.toNat < 256 := b.toNat_lt
    have hcons : hexBytes (b :: bytes) =
        hexDigit (b.toNat / 16) :: hexDigit (b.toNat % 16) :: hexBytes bytes := by
      simp [hexBytes]
    have hvalue : UInt8.ofNat (16 * (b.toNat / 16) + b.toNat % 16) = b := by
      rw [Nat.div_add_mod, UInt8.ofNat_toNat]
    rw [hcons, bytesOfHex?, hexValue?_hexDigit (by omega), hexValue?_hexDigit (by omega), ih]
    exact congrArg (fun x => some (x :: bytes)) hvalue

end Attest.Text
