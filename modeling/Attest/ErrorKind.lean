/-! The kinds of errors, and which kinds are special cases of others. A caller who handles a kind
handles its special cases too. -/

namespace Attest

/-- What an error is about. -/
inductive ErrorKind where
  | wrongType
  | missingAttribute
  | missingMember
  | badIndex
  | badValue
  | overflow
  | system
  | external
  | notAscii
  | notUnicode
  | jsonSyntax
  | base64
  | jwsDecoding
  | jwsSize
  | jwsNoAlgorithm
  | jwsMissingHeader
  | jwsMissingCritical
  | jwsUnsupportedHeader
  | jwsHeaderValue
  | jwsAlgorithm
  | jwsKeyType
  | jwsKeyCurve
  | jwsSignature
  | library
  | precondition
  | claim
  | signing
  | verification
  | tokenParse
  | audienceMismatch
  | credential
  | resolution
  deriving DecidableEq, Repr

namespace ErrorKind

/-- The kinds that a kind is a special case of, closer ones first. -/
def ancestors : ErrorKind → List ErrorKind
  | notAscii => [badValue]
  | notUnicode => [badValue]
  | jsonSyntax => [badValue]
  | base64 => [badValue]
  | precondition => [library, badValue]
  | claim => [library, badValue]
  | signing => [library]
  | verification => [library]
  | tokenParse => [verification, library]
  | audienceMismatch => [verification, library]
  | credential => [verification, library]
  | resolution => [library]
  | _ => []

/-- The kind is `other` or a special case of it. -/
def isA (k other : ErrorKind) : Bool := k == other || (ancestors k).contains other

end ErrorKind

end Attest
