import Attest.Claims.Mapping
import Attest.Resolution.Session
import Attest.Token.Signer
import Attest.Value.Arithmetic
import Attest.Value.Equality

/-! The issue of tokens: credentials and presentations as claim sets that someone signs. The
signature is the proof, so nothing that has a proof already is signed. -/

namespace Attest

/-- What a token says about the use of a presentation. -/
structure PresentationTerms where
  audience : Value
  expiration : Value

/-- What a signer and a signing need besides: the available algorithms, the text that no other token
has, and the time. -/
structure Surroundings where
  registry : Jws.Registry
  nonce : String
  now : Number

namespace Issue

/-- Lets a signer sign a claim set; whatever goes wrong is an error of signing. -/
def signClaims (s : Subject) (signer : Signer) (claims : Claims) (header : Object) :
    Except Error String :=
  (signer.sign (.object claims) (.object header)).mapError (.signing s)

/-- The token of a credential. -/
def credential (w : Surroundings) (signer : Signer) (c : Credential) : Run String := do
  let claims ← Run.ofExcept (Claims.ofCredential w.nonce c)
  let header ← Run.ofExcept (signer.header w.registry)
  Run.log (.signingCredential signer.id (Object.getD header "alg"))
  Run.ofExcept (signClaims .credential signer claims header)

/-- The claims that the terms of a presentation make for its audience. -/
def audienceClaims (terms : Option PresentationTerms) : Except Error Claims :=
  match terms with
  | none => .ok []
  | some t => if t.audience.isNull then .ok [] else Claims.set [] "aud" t.audience

/-- The claims with the one that the terms of a presentation make for its expiration. -/
def addExpiration (claims : Claims) (terms : Option PresentationTerms) : Except Error Claims :=
  match terms with
  | none => .ok claims
  | some t => do
    if ← t.expiration.isPositive.mapError .ofFault then claims.set "exp" t.expiration
    else return claims

/-- The claims with the one for the holder of a presentation, who must be the signer. -/
def addHolder (claims : Claims) (signer : Signer) (holder : Value) : Except Error Claims :=
  if holder.isTruthy then
    if holder.same signer.id then claims.set "iss" holder
    else .error (.precondition .holderSigns)
  else .ok claims

def presentationClaims (w : Surroundings) (signer : Signer) (terms : Option PresentationTerms)
    (p : Presentation) : Except Error Claims := do
  if p.isEmpty then throw (.precondition (.notEmpty .presentation))
  if !p.proof.isNull then throw (.precondition (.noProof .presentation))
  let claims ← audienceClaims terms
  let now ← w.now.truncate.mapError fun e => .basic (.noInteger e)
  let claims ← claims.set "iat" (.int now)
  let claims ← claims.set "nbf" (.int now)
  let claims ← claims.set "nonce" (.text w.nonce)
  let claims ← addExpiration claims terms
  let claims ← claims.setIfTruthy "jti" p.id
  let claims ← addHolder claims signer p.holder
  let object ← p.remainder.toObject.mapError .ofFault
  claims.set "vp" (.object object)

/-- The token of a presentation. -/
def presentation (w : Surroundings) (signer : Signer) (terms : Option PresentationTerms)
    (p : Presentation) : Run String := do
  let claims ← Run.ofExcept (presentationClaims w signer terms p)
  let header ← Run.ofExcept (signer.header w.registry)
  let credentials ← Run.ofExcept (p.credentials.size.mapError .ofFault)
  Run.log (.signingPresentation signer.id credentials)
  Run.ofExcept (signClaims .presentation signer claims header)

end Issue

end Attest
