import Attest.Text.Split
import Attest.Value.Access
import Attest.Value.Equality

/-! Documents of identifiers: the verification methods that hold the keys of an identity. -/

namespace Attest

structure VerificationMethod where
  id : Value
  type : Value
  controller : Value
  publicKeyJwk : Value

structure Document where
  id : Value
  methods : List VerificationMethod

namespace Document

/-- A method has an identifier, or its identifier ends in the given fragment. -/
def isMethod (id : Value) (m : VerificationMethod) : Except Value.Fault Bool :=
  if m.id.same id then .ok true
  else do
    let wanted ← id.asText "startswith"
    if Text.beginsWith "#" wanted then
      return Text.endsWith wanted (← m.id.asText "endswith")
    else return false

/-- The first of some methods with an identifier or fragment. -/
def findMethod (id : Value) : List VerificationMethod → Except Value.Fault (Option VerificationMethod)
  | [] => .ok none
  | m :: rest =>
    match isMethod id m with
    | .error f => .error f
    | .ok true => .ok (some m)
    | .ok false => findMethod id rest

/-- The method of a document with an identifier or fragment. -/
def method? (d : Document) (id : Value) : Except Value.Fault (Option VerificationMethod) :=
  findMethod id d.methods

end Document

end Attest
