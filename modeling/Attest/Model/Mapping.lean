import Attest.Claims.Mapping
import Attest.Model.Basic

/-! Models as claim sets and back. Every model is mapped as a credential is, so a presentation has a
claim set when it was given the attributes that it lacks. -/

namespace Attest.Model

/-- The value of an attribute, the lack of which is an error. -/
def read (m : Model) (name : String) : Except Error Value := (m.get name).mapError .ofFault

/-- Nothing but null stands in the place of a method that copying calls if it is there. -/
def checkHook (m : Model) (method : String) : Except Value.Fault Unit :=
  match Object.get? m.attributes method with
  | some .null => .ok ()
  | _ => m.checkMethod method

/-- A model can be copied unless attributes stand in the place of what copying calls. -/
def checkCopy (m : Model) : Except Value.Fault Unit := do
  m.checkHook "__deepcopy__"
  m.checkHook "__reduce_ex__"
  m.checkMethod "__getstate__"

/-- A model without the identifier of its subject, if it has one. -/
def forgetSubject (m : Model) (subjectId : Value) : Except Value.Fault Model :=
  if subjectId.isTruthy then do
    return m.give "credential_subject"
      (← (Edit.delete (.text "id")).apply (← m.get "credential_subject"))
  else .ok m

/-- What is left of a model when the attributes that have claims of their own are moved there. -/
def remainder (m : Model) (id subjectId : Value) : Except Value.Fault Object := do
  let m ← m.forgetSubject subjectId
  let m := (m.give "issuer" (.text "")).give "issuance_date" (.text "")
  toObject (m.give "id" id.moved)

def claims (nonce : String) (m : Model) : Except Error Claims := do
  if ← m.isEmpty.mapError .ofFault then throw (.precondition (.notEmpty .credential))
  if !(← m.read "proof").isNull then throw (.precondition (.noProof .credential))
  m.checkCopy.mapError .ofFault
  let expirationDate ← m.read "expiration_date"
  let claims ← Claims.setIfTruthy [] "exp" expirationDate
  let m := m.give "expiration_date" expirationDate.moved
  let claims ← claims.set "nonce" (.text nonce)
  let claims ← claims.setIfTruthy "iss" (← m.read "issuer")
  let issuanceDate ← m.read "issuance_date"
  let claims ← claims.setIfTruthy "iat" issuanceDate
  let claims ← claims.setIfTruthy "nbf" issuanceDate
  let id ← m.read "id"
  let claims ← claims.setIfTruthy "jti" id
  let subjectId ← m.subjectId.mapError .ofFault
  let claims ← claims.setIfTruthy "sub" subjectId
  let object ← (m.remainder id subjectId).mapError .ofFault
  claims.set "vc" (.object object)

/-- The model of a kind that the object of a model stands for. -/
def reload (s : Subject) (m : Model) : Except Value.Fault Model := do
  ofValue s (.object (← m.toObject))

/-- The credential that the claim set of a model stands for. -/
def roundTrip (nonce : String) (m : Model) : Except Error Model := do
  return ofCredential (← Claims.toCredential (← m.claims nonce))

/-- The model of a kind with those fields overridden for which a claim set has claims. -/
def overlay (s : Subject) (claims : Claims) (m : Model) : Except Error Model := do
  let o ← m.toObject.mapError .ofFault
  match s with
  | .credential => return ofCredential (← Claims.toCredential (Object.set claims "vc" (.object o)))
  | .presentation =>
    return ofPresentation (← Claims.toPresentation (Object.set claims "vp" (.object o)))

end Attest.Model
