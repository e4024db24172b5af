import Attest.Text.Encoding

/-! What can go wrong when JSON is read or written. -/

namespace Attest.Json

/-- What a text lacks or has too much of to be JSON. -/
inductive Problem where
  | value
  | name
  | colon
  | comma
  | extraData
  | unterminatedString
  | controlCharacter
  | escape
  | unicodeEscape
  deriving DecidableEq, Repr

def Problem.message : Problem → String
  | value => "Expecting value"
  | name => "Expecting property name enclosed in double quotes"
  | colon => "Expecting ':' delimiter"
  | comma => "Expecting ',' delimiter"
  | extraData => "Extra data"
  | unterminatedString => "Unterminated string starting at"
  | controlCharacter => "Invalid control character at"
  | escape => "Invalid \\escape"
  | unicodeEscape => "Invalid \\uXXXX escape"

/-- Why a text or bytes are not JSON. Lines and columns count from one and positions from zero. -/
inductive ReadError where
  | syntaxError (problem : Problem) (line column position : Nat)
  | encoding (e : Text.DecodeError)
  | tooManyDigits (digits : Nat)
  deriving DecidableEq, Repr

/-- The greatest number of digits of a whole number in a text. -/
def digitLimit : Nat := 4300

def tooManyDigits (digits : Nat) : String :=
  s!"Exceeds the limit ({digitLimit} digits) for integer string conversion: " ++
    s!"value has {digits} digits; use sys.set_int_max_str_digits() to increase the limit"

def ReadError.message : ReadError → String
  | syntaxError problem line column position =>
    problem.message ++ s!": line {line} column {column} (char {position})"
  | encoding e => e.message
  | tooManyDigits digits => Json.tooManyDigits digits

/-- Why a value has no JSON text. -/
inductive WriteError where
  | notJson (typeName : String)
  | tooManyDigits
  deriving DecidableEq, Repr

def WriteError.message : WriteError → String
  | notJson typeName => "Object of type " ++ typeName ++ " is not JSON serializable"
  | tooManyDigits =>
    s!"Exceeds the limit ({digitLimit} digits) for integer string conversion; " ++
      "use sys.set_int_max_str_digits() to increase the limit"

end Attest.Json
