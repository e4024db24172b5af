import Attest.Claims.Basic
import Attest.Jws.Compact
import Attest.Value.Access

/-! Tokens read without a look at their signatures: a header and a claim set. -/

namespace Attest

/-- A token that was read. -/
structure ParsedToken where
  raw : String
  headers : Object
  claims : Claims

namespace ParsedToken

/-- The name of the algorithm that the header gives. -/
def algorithm (t : ParsedToken) : Value := Object.getD t.headers "alg"

def kid (t : ParsedToken) : Value := Object.getD t.headers "kid"

def audience (t : ParsedToken) : List String := t.claims.audience

/-- The value of the claim that a value names, or `default` if the claim is absent. -/
def get (t : ParsedToken) (name default : Value) : Except Value.Fault Value := do
  return ((← name.asName?).bind (Object.get? t.claims)).getD default

/-- The pair of a name and a value that two values make, the item `index` of a list of pairs. -/
def pair (index : Nat) (v : Value) : Except Value.Fault (Value × Value) :=
  match v.elements with
  | .error _ => .error (.notPair index)
  | .ok [name, v] => if name.isHashable then .ok (name, v) else .error (.notHashable name.operandTypeName)
  | .ok items => .error (.pairLength index items.length)

/-- The members that the items of a list from `index` on make as pairs. -/
def pairsFrom (index : Nat) : List Value → Except Value.Fault (List (String × Value))
  | [] => .ok []
  | item :: rest =>
    match pair index item with
    | .error f => .error f
    | .ok (name, v) => (pairsFrom (index + 1) rest).map ((name.plain, v) :: ·)

/-- A header as an object. -/
def headerObject (header : Value) : Except Value.Fault Object :=
  match header with
  | .object o => .ok o
  -- A list or a text is taken for a list of pairs.
  | v =>
    match v.elements with
    | .error f => .error f
    | .ok items => (pairsFrom 0 items).map Object.ofMembers

def tokenBytes (s : String) : Except BasicError Bytes := (Text.ascii s.toList).mapError .ascii

def readClaims (payload : Bytes) : Except Error Claims :=
  match Json.readBytes Json.digitLimit payload with
  -- A number that is too long is not reported as an error of the token.
  | .error (.tooManyDigits digits) => .error (.basic (.json (.tooManyDigits digits)))
  | .error e => .error (.token (.payload e))
  | .ok (.object claims) =>
    if Claims.hasValidAudience claims then .ok claims else .error (.token .audience)
  | .ok _ => .error (.token .payloadNotObject)

def ofText (s : String) : Except Error ParsedToken := do
  let bytes ← (tokenBytes s).mapError fun e => .token (.token e)
  let compact ← (Jws.extract bytes).mapError fun e => .token (.token (.jws e))
  let claims ← readClaims compact.payload
  let headers ← (headerObject compact.header).mapError .ofFault
  return ⟨s, headers, claims⟩

/-- Reads a token, which has to be a text. -/
def ofValue (v : Value) : Except Error ParsedToken :=
  match v.asText "encode" with
  | .ok s => ofText s
  | .error f => .error (.token (.token (.fault f)))

end ParsedToken

end Attest
