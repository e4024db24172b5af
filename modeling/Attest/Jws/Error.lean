import Attest.Json.Error
import Attest.Value.Display
import Attest.Value.Fault

/-! What can go wrong when a signed token is made, taken apart or checked. -/

namespace Attest.Jws

/-- A part of a token whose size is limited, with the words for it. -/
inductive Part where
  | token
  | header
  | payload
  | signature
  deriving DecidableEq, Repr

namespace Part

/-- The greatest size of a part, in bytes of the token. -/
def limit : Part → Nat
  | token => 129536
  | header => 512
  | payload => 128000
  | signature => 1024

def message (p : Part) : String :=
  let subject := match p with
    | token => "Value size"
    | header => "Header size"
    | payload => "Payload size"
    | signature => "Signature of"
  subject ++ s!" exceeds {p.limit} bytes."

end Part

/-- A part of a token that cannot be read. -/
inductive Unreadable where
  | token
  | header
  | payload
  deriving DecidableEq, Repr

def Unreadable.message : Unreadable → String
  | token => "Invalid JSON Web Signature"
  | header => "Invalid header"
  | payload => "Invalid payload"

/-- What the value of a header parameter has to be. -/
inductive ParameterType where
  | text
  | url
  | key
  | texts
  | bool
  deriving DecidableEq, Repr

def ParameterType.message : ParameterType → String
  | text => "a str"
  | url => "a URL"
  | key => "a JWK"
  | texts => "a list[str]"
  | bool => "an bool"

/-- Why an algorithm is refused. -/
inductive Refusal where
  | unknown
  | notAllowed
  | notRecommended
  deriving DecidableEq, Repr

def Refusal.message : Refusal → String
  | unknown => "supported"
  | notAllowed => "allowed"
  | notRecommended => "recommended"

/-- Why a token cannot be made, taken apart or accepted. -/
inductive Error where
  | tooLarge (part : Part)
  | unreadable (part : Unreadable)
  | noAlgorithm
  | missingHeader (name : String)
  | missingCritical (names : String)
  | unsupportedCritical (names : List String)
  | unsupportedHeaders (names : List String)
  | headerValue (name : String) (expected : ParameterType)
  | algorithm (name : String) (refusal : Refusal)
  | keyType (algorithm required : String)
  | keyCurve (algorithm required : String)
  | badSignature
  | fault (f : Value.Fault)
  | write (e : Json.WriteError)
  deriving DecidableEq, Repr

namespace Error

def message : Error → String
  | tooLarge part => "exceeded_size: " ++ part.message
  | unreadable part => "decode_error: " ++ part.message
  | noAlgorithm => "missing_algorithm: Missing 'alg' value in header"
  | missingHeader name => "missing_header: Missing '" ++ name ++ "' value in header"
  | missingCritical names => "missing_crit_header: Missing critical '" ++ names ++ "' value in header"
  | unsupportedCritical names =>
    "unsupported_header: Unsupported " ++ Value.exactTexts names ++ " in header"
  | unsupportedHeaders names =>
    "unsupported_header: Unsupported \x7b" ++ Value.commaSeparated (names.map Text.quote) ++
      "\x7d in header"
  | headerValue name expected =>
    "invalid_header_value: '" ++ name ++ "' in header must be " ++ expected.message
  | algorithm name refusal =>
    "unsupported_algorithm: Algorithm of '" ++ name ++ "' is not " ++ refusal.message
  | keyType name required =>
    "invalid_key_type: Algorithm '" ++ name ++ "' requires '" ++ required ++ "' key"
  | keyCurve name required =>
    "invalid_key_curve: Key for '" ++ name ++ "' not supported, only '" ++ required ++
      "' allowed"
  | badSignature => "bad_signature: "
  | fault f => f.message
  | write e => e.message

end Error

end Attest.Jws
