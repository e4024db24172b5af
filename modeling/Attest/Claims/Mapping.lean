import Attest.Claims.Basic
import Attest.Presentation

/-! Credentials and presentations as claim sets. Fields that have a claim of their own are moved to
it, so no value is carried twice, and the rest is a claim too. In the other direction claims override
fields, and one that is absent or of a wrong type leaves its field as it is. -/

namespace Attest

/-- What is left of a value that counts as true when it was moved elsewhere. -/
def Value.moved (v : Value) : Value := if v.isTruthy then .text "" else v

/-- What is left of a subject whose identifier was moved elsewhere. -/
def Value.movedId (subject : Value) (id : String) : Value :=
  match subject with
  | .object o => if id.isEmpty then .object o else .object (Object.erase o "id")
  | v => v

namespace Credential

/-- What is left of a credential when the fields that have claims of their own are moved there. -/
def remainder (c : Credential) (subjectId : String) : Credential :=
  { c with
    id := c.id.moved
    issuer := .text ""
    issuanceDate := .text ""
    expirationDate := c.expirationDate.moved
    subject := c.subject.movedId subjectId }

end Credential

namespace Presentation

/-- What is left of a presentation when the fields that have claims of their own are moved there. -/
def remainder (p : Presentation) : Presentation :=
  { p with id := p.id.moved, holder := p.holder.moved }

end Presentation

namespace Claims

def ofCredential (nonce : String) (c : Credential) : Except Error Claims := do
  if c.isEmpty then throw (.precondition (.notEmpty .credential))
  if !c.proof.isNull then throw (.precondition (.noProof .credential))
  -- The claims stand in this order, and the first one that fails decides the error.
  let claims ← setIfTruthy [] "exp" c.expirationDate
  let claims ← set claims "nonce" (.text nonce)
  let claims ← setIfTruthy claims "iss" c.issuer
  let claims ← setIfTruthy claims "iat" c.issuanceDate
  let claims ← setIfTruthy claims "nbf" c.issuanceDate
  let claims ← setIfTruthy claims "jti" c.id
  let subjectId ← c.subjectId.mapError .ofFault
  let claims ← setIfTruthy claims "sub" (.text subjectId)
  set claims "vc" (.object (c.remainder subjectId).toObject)

/-- A field that is overridden by a text that is not empty. -/
def overrideText (field : Value) : Option String → Value
  | some s => .text s
  | none => field

/-- A field that is overridden by a point in time. -/
def overrideTime (field : Value) : Option DateTime → Value
  | some t => .text t.universalText
  | none => field

/-- A subject whose identifier is overridden. -/
def overrideId (subject : Value) (id : Option String) : Value :=
  match subject, id with
  | .object o, some s => .object (Object.set o "id" (.text s))
  | v, _ => v

/-- A credential with those fields overridden for which a claim set has claims. -/
def overrideCredential (claims : Claims) (c : Credential) : Credential :=
  { c with
    id := overrideText c.id (nonemptyText? claims "jti")
    issuer := overrideText c.issuer (nonemptyText? claims "iss")
    issuanceDate := overrideTime c.issuanceDate (time? claims "iat")
    expirationDate := overrideTime c.expirationDate (time? claims "exp")
    subject := overrideId c.subject (nonemptyText? claims "sub") }

def toCredential (claims : Claims) : Except Error Credential :=
  match Object.get? claims "vc" with
  | none => .error (.token (.missingClaim "vc"))
  | some v =>
    match Credential.ofValue v with
    | .error f => .error (.token (.content .credential f))
    | .ok c => .ok (overrideCredential claims c)

def toPresentation (claims : Claims) : Except Error Presentation :=
  match Object.get? claims "vp" with
  | none => .error (.token (.missingClaim "vp"))
  | some v =>
    match Presentation.ofValue v with
    | .error f => .error (.token (.content .presentation f))
    | .ok p =>
      match Object.get? claims "iss" with
      | none => .error (.token (.missingClaim "iss"))
      | some (.text holder) =>
        .ok { p with
          holder := .text holder
          id := overrideText p.id (nonemptyText? claims "jti") }
      | some _ => .error (.token .issuerNotText)

/-- The claims that a value has, of which one is asked for that holds a credential or a
presentation. -/
def ofValue (s : Subject) (name : String) (v : Value) : Except Error Claims :=
  match v with
  | .object claims => .ok claims
  | v => do
    -- A list or a text may have the name as an item or a part, but nothing under it.
    if ← (v.hasName name).mapError .ofFault then
      return [(name, ← (v.member name).mapError fun f => .token (.content s f))]
    else throw (.token (.missingClaim name))

end Claims

end Attest
