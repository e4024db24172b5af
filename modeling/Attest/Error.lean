import Attest.Calendar.Timestamp
import Attest.ErrorKind
import Attest.Json.Error
import Attest.Jws.Error
import Attest.Key.Basic
import Attest.Number.Literal
import Attest.Value.Display

/-! The errors of the library: each has a cause, the words for it and a kind. -/

namespace Attest

/-- What a signed token is about. -/
inductive Subject where
  | credential
  | presentation
  deriving DecidableEq, Repr

namespace Subject

def name : Subject → String
  | credential => "credential"
  | presentation => "presentation"

/-- The full name of a subject. -/
def title : Subject → String
  | credential => "Verifiable Credential"
  | presentation => "Verifiable Presentation"

end Subject

/-- What has to hold before anything is signed or checked. -/
inductive Precondition where
  | notEmpty (s : Subject)
  | noProof (s : Subject)
  | holderSigns
  | resolverGiven
  deriving DecidableEq, Repr

def Precondition.message : Precondition → String
  | notEmpty s => s.name ++ " cannot be empty"
  | noProof .credential => "credential cannot already have a proof"
  | noProof .presentation => "presentation cannot have a proof"
  | holderSigns => "holder must be the same as the signer"
  | resolverGiven => "resolver cannot be empty"

/-- Why a value does not fit a claim. -/
inductive ClaimProblem where
  | notText (type : String)
  | notAudience
  | notDate
  | notDateType (type : String)
  | invalidDate (text : String)
  | stated (reason : String)
  deriving DecidableEq, Repr

def ClaimProblem.message : ClaimProblem → String
  | notText type => "expected a string, got " ++ type
  | notAudience => "expected a list of strings"
  | notDate => "expected a date"
  | notDateType type => "expected a date, got " ++ type
  | invalidDate text => "invalid date " ++ Text.quote text
  | stated reason => reason

/-- Why an error of an operation on single values arises. -/
inductive BasicError where
  | fault (f : Value.Fault)
  | range (e : DateTime.RangeError)
  | format (e : DateTime.FormatError)
  | noInteger (e : Binary64.NoInteger)
  | literal (e : LiteralError)
  | ascii (e : Text.AsciiError)
  | json (e : Json.ReadError)
  | write (e : Json.WriteError)
  | key (e : KeyError)
  | jws (e : Jws.Error)
  deriving DecidableEq, Repr

/-- Why a token is not one of the expected form. -/
inductive TokenProblem where
  | token (cause : BasicError)
  | payload (e : Json.ReadError)
  | payloadNotObject
  | audience
  | missingClaim (name : String)
  | content (s : Subject) (f : Value.Fault)
  | issuerNotText
  deriving DecidableEq, Repr

/-- Why an identifier is not resolved. -/
inductive ResolutionProblem where
  | cancelled
  | deadlineExceeded
  | unsupportedMethod (did : String)
  | key (did : String) (e : KeyError)
  | notFound (did : String)
  deriving DecidableEq, Repr

/-- Why a credential of a presentation cannot be verified. -/
inductive CredentialProblem where
  | unsupportedType (type : String)
  | noProof
  | unsupportedProof (type : Value)
  | noIssuer
  | methodNotFound (id issuer : Value)
  | noMethods (issuer : Value)
  | noPublicKey (id : Value)
  | methodKey (id : Value) (e : KeyError)

/-- What went wrong. -/
inductive Error where
  | basic (e : BasicError)
  | stated (kind : ErrorKind) (text : String)
  | precondition (p : Precondition)
  | claim (name : String) (problem : Option ClaimProblem)
  | signing (s : Subject) (cause : Error)
  | signature (cause : BasicError)
  | outerSignature (cause : Error)
  | token (p : TokenProblem)
  | audienceMismatch (id kid : Value) (audience : List String)
  | credential (p : CredentialProblem)
  | embedded (index : Nat) (cause : Error)
  | resolution (p : ResolutionProblem)

def Value.Fault.kind : Value.Fault → ErrorKind
  | noAttribute _ _ | typeLacksAttribute _ _ | noSetter _ _ | notWritable _ _ => .missingAttribute
  | missingMember _ | missingKey _ => .missingMember
  | indexTooLarge | indexOutOfRange => .badIndex
  | tooLarge => .overflow
  | notByte => .badValue
  | pairLength _ _ => .badValue
  | _ => .wrongType

def DateTime.RangeError.kind : DateTime.RangeError → ErrorKind
  | beyondClock => .overflow
  | beyondYears => .system
  | year _ => .badValue
  | notNumber => .badValue

def DateTime.FormatError.kind : DateTime.FormatError → ErrorKind
  | yearZero => .badValue
  | beyondYears => .overflow

def Binary64.NoInteger.kind : Binary64.NoInteger → ErrorKind
  | .nan => .badValue
  | .infinity => .overflow

def Json.ReadError.kind : Json.ReadError → ErrorKind
  | syntaxError .. => .jsonSyntax
  | encoding _ => .notUnicode
  | tooManyDigits _ => .badValue

def Json.WriteError.kind : Json.WriteError → ErrorKind
  | notJson _ => .wrongType
  | tooManyDigits => .badValue

def KeyError.kind : KeyError → ErrorKind
  | notKey _ => .wrongType
  | tooBig => .overflow
  | base64 .notAscii => .badValue
  | base64 _ => .base64
  | base58 (.notAscii _) => .notAscii
  | fault f => f.kind
  | _ => .badValue

def Jws.Error.kind : Jws.Error → ErrorKind
  | tooLarge _ => .jwsSize
  | unreadable _ => .jwsDecoding
  | noAlgorithm => .jwsNoAlgorithm
  | missingHeader _ => .jwsMissingHeader
  | missingCritical _ => .jwsMissingCritical
  | unsupportedCritical _ => .jwsUnsupportedHeader
  | unsupportedHeaders _ => .jwsUnsupportedHeader
  | headerValue _ _ => .jwsHeaderValue
  | algorithm _ _ => .jwsAlgorithm
  | keyType _ _ => .jwsKeyType
  | keyCurve _ _ => .jwsKeyCurve
  | badSignature => .jwsSignature
  | fault f => f.kind
  | write e => e.kind

namespace BasicError

def message : BasicError → String
  | fault f => f.message
  | range e => e.message
  | format e => e.message
  | noInteger e => e.message
  | literal e => e.message
  | ascii e => e.message
  | json e => e.message
  | write e => e.message
  | key e => e.message
  | jws e => e.message

def kind : BasicError → ErrorKind
  | fault f => f.kind
  | range e => e.kind
  | format e => e.kind
  | noInteger e => e.kind
  | literal _ => .badValue
  | ascii _ => .notAscii
  | json e => e.kind
  | write e => e.kind
  | key e => e.kind
  | jws e => e.kind

end BasicError

def TokenProblem.message : TokenProblem → String
  | token cause => "parsing token: " ++ cause.message
  | payload e => "Invalid payload JSON: " ++ e.message
  | payloadNotObject => "token payload is not a JSON object"
  | audience => "aud claim must be a string or a list of strings"
  | missingClaim name => "did not find " ++ name ++ " property in token"
  | content s f => "reconstructing " ++ s.title ++ ": " ++ f.message
  | issuerNotText => "issuer property is not a string"

def ResolutionProblem.message : ResolutionProblem → String
  | cancelled => "context cancelled"
  | deadlineExceeded => "context deadline exceeded"
  | unsupportedMethod did => "unsupported DID method: " ++ did
  | key did e => "resolving " ++ did ++ ": " ++ e.message
  | notFound did => "not found: " ++ did

def CredentialProblem.message : CredentialProblem → String
  | unsupportedType type => "unsupported credential type: " ++ type
  | noProof => "credential must have a proof"
  | unsupportedProof type => "unsupported proof type: " ++ type.exact
  | noIssuer => "credential has no issuer"
  | methodNotFound id issuer =>
    "verification method " ++ id.plain ++ " not found for " ++ issuer.plain
  | noMethods issuer => "no verification methods found for " ++ issuer.plain
  | noPublicKey id => "verification method " ++ id.plain ++ " has no public key"
  | methodKey id e => "verification method " ++ id.plain ++ ": " ++ e.message

namespace Error

/-- The words for an audience that the verifier does not belong to. -/
def mismatchMessage (id kid : Value) (audience : String) : String :=
  "audience mismatch: expected [" ++ id.plain ++ "] or [" ++
    (if kid.isTruthy then kid.plain else "") ++ "], got " ++ audience

/-- The words for the credential of a presentation at which its verification stopped. -/
def embeddedMessage (index reason : String) : String :=
  "verifying credential " ++ index ++ ": " ++ reason

def message : Error → String
  | basic e => e.message
  | stated _ text => text
  | precondition p => p.message
  | claim name none => "setting " ++ name ++ " value"
  | claim name (some problem) => "setting " ++ name ++ " value: " ++ problem.message
  | signing s cause => "signing " ++ s.name ++ ": " ++ cause.message
  | signature cause => "JWS verification failed: " ++ cause.message
  | outerSignature cause => "verifying JWT: " ++ cause.message
  | token p => p.message
  | audienceMismatch id kid audience => mismatchMessage id kid (Value.exactTexts audience)
  | credential p => p.message
  | embedded index cause => embeddedMessage (toString index) cause.message
  | resolution p => p.message

def kind : Error → ErrorKind
  | basic e => e.kind
  | stated kind _ => kind
  | precondition _ => .precondition
  | claim _ _ => .claim
  | signing _ _ => .signing
  | signature _ => .verification
  | outerSignature _ => .verification
  | token _ => .tokenParse
  | audienceMismatch _ _ _ => .audienceMismatch
  | credential _ => .verification
  | embedded _ _ => .credential
  | resolution _ => .resolution

/-- An operation met a value of a type that it is not made for. -/
def ofFault (f : Value.Fault) : Error := basic (.fault f)

/-- A value does not fit a claim for a reason that a caller may state. -/
def ofReason (name : String) (reason : Value) : Error :=
  claim name (if reason.isTruthy then some (.stated reason.plain) else none)

/-- There is no key, or no text for it. -/
def ofKey (e : KeyError) : Error := basic (.key e)

end Error

end Attest
