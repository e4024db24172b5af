import Attest.Bytes
import Attest.Calendar.Date
import Attest.Calendar.DateTime
import Attest.Calendar.Iso8601
import Attest.Calendar.Timestamp
import Attest.Claims.Basic
import Attest.Claims.Mapping
import Attest.Claims.NumericDate
import Attest.Codec.Base58
import Attest.Codec.Base64Url
import Attest.Credential
import Attest.Crypto.Ed25519
import Attest.Crypto.Modular
import Attest.Crypto.P256
import Attest.Crypto.Sha2
import Attest.Error
import Attest.ErrorKind
import Attest.Issue
import Attest.Json.Bytes
import Attest.Json.Error
import Attest.Json.Reader
import Attest.Json.Writer
import Attest.Jws.Algorithm
import Attest.Jws.Compact
import Attest.Jws.Error
import Attest.Jws.Header
import Attest.Key.Basic
import Attest.Key.DidKey
import Attest.Key.Jwk
import Attest.Model.Basic
import Attest.Model.Builtin
import Attest.Model.Credential
import Attest.Model.Mapping
import Attest.Number.Binary64
import Attest.Number.Literal
import Attest.Number.Shortest
import Attest.Number.Text
import Attest.Presentation
import Attest.Proofs.Calendar.Count
import Attest.Proofs.Calendar.Date
import Attest.Proofs.Calendar.Fraction
import Attest.Proofs.Calendar.Front
import Attest.Proofs.Calendar.Iso8601
import Attest.Proofs.Calendar.Offset
import Attest.Proofs.Calendar.Order
import Attest.Proofs.Calendar.Range
import Attest.Proofs.Calendar.Seconds
import Attest.Proofs.Calendar.Timestamp
import Attest.Proofs.Claims.DateOrder
import Attest.Proofs.Claims.DateRange
import Attest.Proofs.Claims.DateText
import Attest.Proofs.Claims.Dates
import Attest.Proofs.Claims.Decoding
import Attest.Proofs.Claims.Failure
import Attest.Proofs.Claims.Fields
import Attest.Proofs.Claims.Fraction
import Attest.Proofs.Claims.Instants
import Attest.Proofs.Claims.Kept
import Attest.Proofs.Claims.Overlay
import Attest.Proofs.Claims.Promoted
import Attest.Proofs.Claims.Reading
import Attest.Proofs.Claims.RoundTrip
import Attest.Proofs.Claims.Setting
import Attest.Proofs.Claims.Typed
import Attest.Proofs.Claims.WholeSeconds
import Attest.Proofs.Codec.Base58
import Attest.Proofs.Codec.Base64Url
import Attest.Proofs.Codec.Digits
import Attest.Proofs.Codec.Padding
import Attest.Proofs.Crypto.Modular
import Attest.Proofs.Crypto.P256
import Attest.Proofs.Crypto.Point
import Attest.Proofs.Issue.ClaimSet
import Attest.Proofs.Issue.Once
import Attest.Proofs.Issue.Presentation
import Attest.Proofs.Json.Documents
import Attest.Proofs.Json.Numbers
import Attest.Proofs.Json.Strings
import Attest.Proofs.Json.Values
import Attest.Proofs.Key.Accepted
import Attest.Proofs.Key.Export
import Attest.Proofs.Key.Identifier
import Attest.Proofs.Key.Leading
import Attest.Proofs.Key.Loading
import Attest.Proofs.Key.NumberText
import Attest.Proofs.Key.Pair
import Attest.Proofs.Key.Spelling
import Attest.Proofs.Key.Unreadable
import Attest.Proofs.Model.NormalForm
import Attest.Proofs.Number.Decimal
import Attest.Proofs.Number.Digits
import Attest.Proofs.Number.Numeral
import Attest.Proofs.Number.Order
import Attest.Proofs.Number.Rounding
import Attest.Proofs.Number.Truncation
import Attest.Proofs.Number.WholeOrder
import Attest.Proofs.Resolution.Answers
import Attest.Proofs.Resolution.Finished
import Attest.Proofs.Resolution.Key
import Attest.Proofs.Resolution.KeyDocument
import Attest.Proofs.Resolution.Lookup
import Attest.Proofs.Run
import Attest.Proofs.Text.Ascii
import Attest.Proofs.Text.Filled
import Attest.Proofs.Text.Utf8
import Attest.Proofs.Token.Accepted
import Attest.Proofs.Token.Compact
import Attest.Proofs.Token.Covered
import Attest.Proofs.Token.Failure
import Attest.Proofs.Token.Parsed
import Attest.Proofs.Token.RoundTrip
import Attest.Proofs.Token.Signature
import Attest.Proofs.Token.Signing
import Attest.Proofs.Value.WellFormed
import Attest.Proofs.Verification.Audience
import Attest.Proofs.Verification.Deadline
import Attest.Proofs.Verification.Embedded
import Attest.Proofs.Verification.Failure
import Attest.Proofs.Verification.Issued
import Attest.Proofs.Verification.KeyIssuer
import Attest.Proofs.Verification.Log
import Attest.Proofs.Verification.Order
import Attest.Proofs.Verification.Signature
import Attest.Proofs.Verification.Stages
import Attest.Resolution.Context
import Attest.Resolution.Document
import Attest.Resolution.Resolver
import Attest.Resolution.Session
import Attest.Statement
import Attest.Text.Classes
import Attest.Text.Encoding
import Attest.Text.Hex
import Attest.Text.Printable
import Attest.Text.Quoted
import Attest.Text.Split
import Attest.Text.Utf16
import Attest.Text.Utf8
import Attest.Token.Parsed
import Attest.Token.Signer
import Attest.Token.Verifier
import Attest.Value.Access
import Attest.Value.Arithmetic
import Attest.Value.Basic
import Attest.Value.Display
import Attest.Value.Edit
import Attest.Value.Equality
import Attest.Value.Fault
import Attest.Value.Object
import Attest.Verify
