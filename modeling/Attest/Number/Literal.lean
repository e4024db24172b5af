import Attest.Json.Error
import Attest.Number.Text
import Attest.Text.Classes
import Attest.Text.Quoted

/-! The reader of whole numbers written in the digits of any script. -/

namespace Attest

/-- Why digits stand for no whole number. -/
inductive LiteralError where
  | tooManyDigits (digits : Nat)
  | notNumeral (text : String)
  deriving DecidableEq, Repr

namespace LiteralError

/-- The error in words; of a long text only the beginning is shown. -/
def message : LiteralError → String
  | tooManyDigits digits => Json.tooManyDigits digits
  | notNumeral text =>
    "invalid literal for int() with base 10: " ++
      String.ofList ((Text.Quoted.encode text.toList).take 200)

end LiteralError

/-- The number that the decimal digits at the start of a text stand for after `n`, the number of
digits from `count` on, and what is left of the text. -/
def decimalFrom (n count : Nat) : List Char → Nat × Nat × List Char
  | [] => (n, count, [])
  | c :: rest =>
    match Text.decimalValue? c with
    | some d => decimalFrom (10 * n + d) (count + 1) rest
    | none => (n, count, c :: rest)

def readDigits (cs : List Char) : Except LiteralError Nat :=
  match decimalFrom 0 0 cs with
  | (n, count, rest) =>
    if Json.digitLimit < count then .error (.tooManyDigits count)
    else if count = 0 || !rest.isEmpty then .error (.notNumeral (String.ofList cs))
    else .ok n

end Attest
