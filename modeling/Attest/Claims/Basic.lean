import Attest.Claims.NumericDate
import Attest.Value.Edit

/-! Claim sets: objects of which some members have a meaning of their own, and therefore a type. -/

namespace Attest

abbrev Claims := Object

namespace Claims

/-- The claim names a date. -/
def isTime (name : String) : Bool := name == "exp" || name == "nbf" || name == "iat"

/-- The claim names someone or something. -/
def isName (name : String) : Bool := name == "iss" || name == "sub" || name == "jti"

def isAudience : Value → Bool
  | .text _ => true
  | .list items => items.all Value.isText
  | _ => false

/-- The value that a claim gets when it is set to `v`. -/
def normalize (name : String) (v : Value) : Except Error Value :=
  if isTime name then (numericDate name v).map .int
  else if isName name && !v.isText then .error (.claim name (some (.notText v.typeName)))
  else if name = "aud" then
    if isAudience v then
      match v with
      | .text s => .ok (.list [.text s])
      | v => .ok v
    else .error (.claim name (some .notAudience))
  else .ok v

/-- Sets a claim, dates becoming seconds since the epoch and a single audience a list. -/
def set (claims : Claims) (name : String) (v : Value) : Except Error Claims :=
  (normalize name v).map (Object.set claims name)

/-- Sets a claim of any name where claims are kept in a value of any type. -/
def setIn (claims name v : Value) : Except Error Value := do
  -- What is no text names none of the claims that have a type.
  let v ← match name with
    | .text name => normalize name v
    | _ => .ok v
  ((Edit.put name v).apply claims).mapError .ofFault

def setIfTruthy (claims : Claims) (name : String) (v : Value) : Except Error Claims :=
  if v.isTruthy then set claims name v else .ok claims

def text? (claims : Claims) (name : String) : Option String := (Object.getD claims name).text?

/-- The text that a claim is, unless it is empty. -/
def nonemptyText? (claims : Claims) (name : String) : Option String :=
  (text? claims name).filter fun s => !s.isEmpty

def audience (claims : Claims) : List String :=
  match Object.getD claims "aud" with
  | .text s => [s]
  | .list items => items.filterMap Value.text?
  | _ => []

/-- The audience of a claim set is absent, a text or a list of texts. -/
def hasValidAudience (claims : Claims) : Bool := isAudience ((Object.get? claims "aud").getD (.list []))

end Claims

end Attest
