import Attest.Number.Shortest

/-! The text of floating point numbers: the shortest digits that read back, with a decimal point for
exponents from -4 to 15 and in scientific notation beyond, and the reader of such texts. -/

namespace Attest

/-- The number that a list of decimal digits stands for. -/
def natOfDigits (cs : List Char) : Nat := Nat.ofDigitChars 10 cs 0

namespace Binary64

/-- The digits of a decimal without the zeros at the end. -/
def significantDigits (coefficient : Nat) : List Char :=
  ((Nat.toDigits 10 coefficient).reverse.dropWhile (· == '0')).reverse

/-- Digits with a decimal point after the first `point` of them, filled with zeros as needed. -/
def positional (digits : List Char) (point : Int) : List Char :=
  if point ≤ 0 then '0' :: '.' :: (List.replicate (-point).toNat '0' ++ digits)
  else
    let before := point.toNat
    if before < digits.length then digits.take before ++ '.' :: digits.drop before
    else digits ++ List.replicate (before - digits.length) '0' ++ ['.', '0']

/-- Digits with a decimal point after the first one and an exponent of at least two digits. -/
def scientific (digits : List Char) (exponent : Int) : List Char :=
  let mantissa := match digits with
    | d :: rest@(_ :: _) => d :: '.' :: rest
    | short => short
  let magnitude := Nat.toDigits 10 exponent.natAbs
  mantissa ++ 'e' :: (if exponent < 0 then '-' else '+') ::
    (List.replicate (2 - magnitude.length) '0' ++ magnitude)

/-- A decimal in positional notation if its exponent is from -4 to 15, else in scientific one. -/
def Decimal.text (d : Decimal) : List Char :=
  if d.coefficient = 0 then ['0', '.', '0']
  else
    let digits := significantDigits d.coefficient
    let exponent : Int := (Nat.toDigits 10 d.coefficient).length - 1 + d.exponent
    if -4 ≤ exponent && exponent < 16 then positional digits (exponent + 1)
    else scientific digits exponent

def finiteText (x : Binary64) : List Char :=
  (if x.isNegative then ['-'] else []) ++ x.shortest.text

def text : Binary64 → List Char
  | nan => "nan".toList
  | infinity false => "inf".toList
  | infinity true => "-inf".toList
  | x => x.finiteText

end Binary64

/-- A decimal numeral taken apart: the digits before and after the point and those of the exponent,
each part that is absent being `none`. -/
structure Numeral where
  negative : Bool
  whole : List Char
  fraction : Option (List Char)
  exponent : Option (Bool × List Char)
  deriving DecidableEq, Repr

namespace Numeral

def isFloat (n : Numeral) : Bool := n.fraction.isSome || n.exponent.isSome

def toInt (n : Numeral) : Int :=
  let magnitude : Int := natOfDigits n.whole
  if n.negative then -magnitude else magnitude

def toBinary64 (n : Numeral) : Binary64 :=
  let fraction := n.fraction.getD []
  let exponent : Int := match n.exponent with
    | none => 0
    | some (minus, digits) => if minus then -(natOfDigits digits : Int) else natOfDigits digits
  Binary64.ofDecimal n.negative (natOfDigits (n.whole ++ fraction)) (exponent - fraction.length)

/-- The whole part at the start of a text: one zero, or digits of which the first is not zero. -/
def takeWhole : List Char → Option (List Char × List Char)
  | '0' :: rest => some (['0'], rest)
  | c :: rest => if c.isDigit then some ((c :: rest).span Char.isDigit) else none
  | [] => none

/-- The fraction at the start of a text, if a point and a digit stand there. -/
def takeFraction : List Char → Option (List Char) × List Char
  | '.' :: c :: rest =>
    if c.isDigit then
      let (digits, rest) := (c :: rest).span Char.isDigit
      (some digits, rest)
    else (none, '.' :: c :: rest)
  | rest => (none, rest)

/-- The sign at the start of a text, and whether it is a minus. -/
def takeSign : List Char → Bool × List Char
  | '-' :: rest => (true, rest)
  | '+' :: rest => (false, rest)
  | rest => (false, rest)

/-- The exponent at the start of a text, if its letter, perhaps a sign, and a digit stand there. -/
def takeExponent : List Char → Option (Bool × List Char) × List Char
  | [] => (none, [])
  | c :: rest =>
    if c = 'e' || c = 'E' then
      let (minus, digits) := takeSign rest
      match digits.span Char.isDigit with
      | ([], _) => (none, c :: rest)
      | (ds, rest) => (some (minus, ds), rest)
    else (none, c :: rest)

/-- The longest numeral at the start of a text. -/
def take (cs : List Char) : Option (Numeral × List Char) := do
  let (negative, rest) := match cs with
    | '-' :: rest => (true, rest)
    | rest => (false, rest)
  let (whole, rest) ← takeWhole rest
  let (fraction, rest) := takeFraction rest
  let (exponent, rest) := takeExponent rest
  return (⟨negative, whole, fraction, exponent⟩, rest)

end Numeral

def Binary64.ofText? (cs : List Char) : Option Binary64 :=
  if cs = "nan".toList then some .nan
  else if cs = "inf".toList then some (.infinity false)
  else if cs = "-inf".toList then some (.infinity true)
  else
    match Numeral.take cs with
    | some (n, []) => some n.toBinary64
    | _ => none

end Attest
