import Attest.Claims.Mapping
import Attest.Resolution.Resolver
import Attest.Token.Parsed
import Attest.Token.Verifier

/-! The verification of tokens. A presentation passes in a fixed order: a resolver is given, the outer
signature verifies, the token is well formed, the verifier is meant, and every credential verifies.
The first failure decides. -/

namespace Attest

/-- A credential with the token that it was read from. -/
structure ReadCredential where
  token : ParsedToken
  credential : Credential

/-- A presentation with the token that it was read from. -/
structure ReadPresentation where
  token : ParsedToken
  presentation : Presentation

namespace Verify

/-- Reads a credential without a look at the signature. -/
def readCredential (token : Value) : Except Error ReadCredential := do
  let parsed ← ParsedToken.ofValue token
  return ⟨parsed, ← Claims.toCredential parsed.claims⟩

/-- Reads a presentation without a look at the signature. -/
def readPresentation (token : Value) : Except Error ReadPresentation := do
  let parsed ← ParsedToken.ofValue token
  return ⟨parsed, ← Claims.toPresentation parsed.claims⟩

/-- Lets a verifier check the signature of a token. -/
def signature (verifier : Verifier) (token : Value) : Run Unit := do
  Run.ofExcept ((verifier.verify token).mapError .outerSignature)
  Run.log (.signatureVerified verifier.id)

def credential (verifier : Verifier) (token : Value) : Run ReadCredential := do
  signature verifier token
  Run.ofExcept (readCredential token)

/-- The method of a document that a token was signed with: the one that the header names, and the
first one if it names none. -/
def chooseMethod (document : Document) (kid issuer : Value) : Except Error VerificationMethod :=
  if kid.isTruthy then
    match document.method? kid with
    | .error f => .error (.ofFault f)
    | .ok (some m) => .ok m
    | .ok none => .error (.credential (.methodNotFound kid issuer))
  else
    match document.methods with
    | m :: _ => .ok m
    | [] => .error (.credential (.noMethods issuer))

def methodVerifier (r : Jws.Registry) (issuer : Value) (m : VerificationMethod) :
    Except Error Verifier :=
  if m.publicKeyJwk.isTruthy then
    (Verifier.ofJwk r issuer m.publicKeyJwk m.id).mapError fun e =>
      if e.kind.isA .badValue then .credential (.methodKey m.id e) else .ofKey e
  else .error (.credential (.noPublicKey m.id))

/-- Verifies a credential that is a token, with the key that the document of its issuer gives. -/
def credentialToken (r : Jws.Registry) (context : Option Context) (resolver : Option Resolver)
    (token : Value) : Run Unit := do
  let decoded ← Run.ofExcept (readCredential token)
  let issuer := decoded.credential.issuer
  if !issuer.isTruthy then Run.fail (.credential .noIssuer)
  let document ← Resolver.ask resolver context issuer
  let method ← Run.ofExcept (chooseMethod document decoded.token.kid issuer)
  let verifier ← Run.ofExcept (methodVerifier r issuer method)
  Run.ofExcept (verifier.verify token)

/-- Why a credential with the given proof is refused: only tokens can be verified. -/
def proofError (proof : Value) : Error :=
  match proof with
  | .null => .credential .noProof
  | .object o =>
    -- The type stands in the message, and there is no message if it cannot be written.
    let type := Object.getD o "type"
    if type.isShowable then .credential (.unsupportedProof type)
    else .basic (.write .tooManyDigits)
  | _ => .credential (.unsupportedProof .null)

/-- Verifies a credential of a presentation. -/
def embedded (r : Jws.Registry) (context : Option Context) (resolver : Option Resolver)
    (v : Value) : Run Unit :=
  match v with
  | .text s => credentialToken r context resolver (.text s)
  | .credential c => Run.fail (proofError c.proof)
  | .object o => Run.fail (proofError (Object.getD o "proof"))
  | v => Run.fail (.credential (.unsupportedType v.typeName))

/-- Verifies credentials in their order, the first one having the given index. -/
def allEmbedded (r : Jws.Registry) (context : Option Context) (resolver : Option Resolver) :
    (index : Nat) → List Value → Run Unit
  | _, [] => pure ()
  | index, v :: rest => do
    Run.log (.verifyingCredential index)
    Run.mapError (.embedded index) (embedded r context resolver v)
    allEmbedded r context resolver (index + 1) rest

/-- Checks that a verifier is among those that a token is meant for, if it names any. The identifiers of
the verifier are texts or null, which a message can always show; a whole number with more digits than
can be written is none. -/
def audience (verifier : Verifier) (names : List String) : Run Unit :=
  if names.isEmpty then pure ()
  else if names.any fun s => (Value.text s).same verifier.id || (Value.text s).same verifier.kid then
    Run.log (.audienceMatched verifier.id)
  else Run.fail (.audienceMismatch verifier.id verifier.kid names)

/-- Verifies and reads a presentation. -/
def presentation (r : Jws.Registry) (context : Option Context) (verifier : Verifier)
    (resolver : Option Resolver) (token : Value) : Run ReadPresentation := do
  if resolver.isNone then Run.fail (.precondition .resolverGiven)
  signature verifier token
  let result ← Run.ofExcept (readPresentation token)
  audience verifier result.token.audience
  let credentials ← Run.ofExcept (result.presentation.credentials.elements.mapError .ofFault)
  allEmbedded r context resolver 0 credentials
  return result

end Verify

end Attest
