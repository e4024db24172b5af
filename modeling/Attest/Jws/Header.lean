import Attest.Jws.Error
import Attest.Text.Split
import Attest.Value.Access

/-! The parameters that a token's header may have, and the checks that a header has to pass before
anything else is done with the token. -/

namespace Attest.Jws

/-- A registered header parameter with the type of its values. -/
structure Parameter where
  name : String
  type : ParameterType
  required : Bool

/-- The registered header parameters in the order of the checks. -/
def parameters : List Parameter :=
  [⟨"alg", .text, true⟩, ⟨"jku", .url, false⟩, ⟨"jwk", .key, false⟩, ⟨"kid", .text, false⟩,
    ⟨"x5u", .url, false⟩, ⟨"x5c", .texts, false⟩, ⟨"x5t", .text, false⟩,
    ⟨"x5t#S256", .text, false⟩, ⟨"typ", .text, false⟩, ⟨"cty", .text, false⟩,
    ⟨"crit", .texts, false⟩, ⟨"b64", .bool, false⟩]

def isRegistered (name : String) : Bool := parameters.any fun p => p.name == name

/-- A text begins like a web address. -/
def isUrl (s : String) : Bool := Text.beginsWith "http://" s || Text.beginsWith "https://" s

/-- What a value of a header parameter should have been, if it is not what it has to be. -/
def ParameterType.mismatch? (expected : ParameterType) (v : Value) : Option ParameterType :=
  match expected, v with
  | .text, .text _ => none
  | .url, .text s => if isUrl s then none else some .url
  | .url, _ => some .text
  | .key, .object _ => none
  | .texts, .list items => if items.all Value.isText then none else some .texts
  | .bool, .bool _ => none
  | expected, _ => some expected

def Parameter.check (header : Object) (p : Parameter) : Except Error Unit :=
  match Object.get? header p.name with
  | none => if p.required then .error (.missingHeader p.name) else .ok ()
  | some v =>
    match p.type.mismatch? v with
    | some expected => .error (.headerValue p.name expected)
    | none => .ok ()

/-- Those values that name no member of a header. -/
def missingNames (header : Object) : List Value → Except Value.Fault (List Value)
  | [] => .ok []
  | v :: rest =>
    if v.isHashable then
      match missingNames header rest with
      | .error f => .error f
      | .ok missing =>
        match v with
        | .text s => .ok (if Object.contains header s then missing else v :: missing)
        | v => .ok (v :: missing)
    else .error (.notHashable v.operandTypeName)

/-- Texts joined by commas, counted from `index` on. -/
def joinFrom (index : Nat) : List Value → Except Value.Fault (List String)
  | [] => .ok []
  | .text s :: rest => (joinFrom (index + 1) rest).map (s :: ·)
  | v :: _ => .error (.notJoinable index v.operandTypeName)

/-- Checks that the header has all parameters that it calls critical, and that these are
registered. -/
def checkCritical (header : Object) : Except Error Unit := do
  match Object.get? header "crit" with
  | none => return ()
  | some crit =>
    let names ← crit.elements.mapError .fault
    let missing ← (missingNames header names).mapError .fault
    if missing.isEmpty then
      let unregistered := (names.filterMap Value.text?).filter fun name => !isRegistered name
      if unregistered.isEmpty then return () else throw (.unsupportedCritical unregistered)
    else
      let texts ← (joinFrom 0 missing).mapError .fault
      throw (.missingCritical (String.intercalate "," texts))

/-- Checks a header: its critical parameters, then the values of the registered ones, then that there
are no others. -/
def checkHeader (header : Object) : Except Error Unit := do
  checkCritical header
  parameters.forM (Parameter.check header)
  let others := (Object.names header).filter fun name => !isRegistered name
  if others.isEmpty then return () else throw (.unsupportedHeaders others)

end Attest.Jws
