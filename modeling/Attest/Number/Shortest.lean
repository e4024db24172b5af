import Attest.Number.Binary64

/-! The shortest decimal that reads back as a given floating point number: on the grid of decimals of
one digit, then of two, and so on, one of the number's two neighbours on the grid is tried, the
nearer one first and of two equally near ones the even one. -/

namespace Attest.Binary64

/-- A decimal: a coefficient and the exponent of a power of ten. -/
structure Decimal where
  coefficient : Nat
  exponent : Int
  deriving DecidableEq, Repr

/-- The finite number that a sign and a decimal read as. -/
def Decimal.toBinary64 (negative : Bool) (d : Decimal) : Binary64 :=
  ofDecimal negative d.coefficient d.exponent

/-- How many decimal places the digits of a number are computed to. -/
def places : Nat := 400

/-- The decimal of all digits of a finite number. -/
def exactDecimal (x : Binary64) : Decimal := ⟨x.units * 5 ^ 1074, -1074⟩

/-- The two neighbours of a number on the grid of decimals of `n` digits, the nearer one first;
`whole` is the number in units of `10 ^ -places`, without its fraction, and has `length` digits. -/
def neighbours (x : Binary64) (whole length n : Nat) : List Decimal :=
  let step := 10 ^ (length - n)
  let below := whole / step
  let exponent : Int := (length : Int) - n - places
  let twice := 2 * x.units * 10 ^ places
  let middle := (2 * below + 1) * step * unitsPerOne
  let lower : Decimal := ⟨below, exponent⟩
  let upper : Decimal := ⟨below + 1, exponent⟩
  if twice < middle then [lower, upper]
  else if middle < twice then [upper, lower]
  else if below % 2 = 0 then [lower, upper] else [upper, lower]

/-- The decimals that a number may be written as, shorter and nearer ones first. -/
def candidates (x : Binary64) : List Decimal :=
  let whole := x.units * 10 ^ places / unitsPerOne
  let length := (Nat.toDigits 10 whole).length
  (List.range 17).flatMap fun n => neighbours x whole length (n + 1)

/-- The shortest decimal that reads back as the magnitude of a finite number. -/
def shortest (x : Binary64) : Decimal :=
  ((candidates x).find? fun d => d.toBinary64 x.isNegative == x).getD (exactDecimal x)

end Attest.Binary64
