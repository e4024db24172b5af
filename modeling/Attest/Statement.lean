import Attest.Error
import Attest.Value.Fault

/-! Errors as callers state them: a kind with arguments of any type, which the error keeps by name. -/

namespace Attest

/-- An error that a caller states. -/
structure Statement where
  kind : ErrorKind
  message : String
  attributes : Object

namespace Statement

/-- The words for the arguments of an error that only keeps them. -/
def words : List Value → String
  | [] => ""
  | [v] => v.plain
  | args => "(" ++ Value.commaSeparated (args.map Value.exact) ++ ")"

/-- The names of the arguments that errors of a kind must be given, if they take a fixed number. -/
def parameters? : ErrorKind → Option (List String)
  | .claim => some ["claim"]
  | .audienceMismatch => some ["expected_id", "expected_kid", "audience"]
  | .credential => some ["index", "reason"]
  | _ => none

/-- How many more arguments errors of a kind may be given. -/
def optional : ErrorKind → Nat
  | .claim => 1
  | _ => 0

/-- Checks the number of arguments of an error; the error itself counts as one. -/
def checkArguments (function : String) (kind : ErrorKind) (args : List Value) :
    Except Value.Fault Unit :=
  match parameters? kind with
  | some names =>
    Value.checkArguments function ("self" :: names) (optional kind) (args.length + 1)
  | none => .ok ()

/-- The error that a caller states with arguments; the function that makes errors of the kind is named
when their number does not fit. -/
def ofArguments (function : String) (kind : ErrorKind) (args : List Value) :
    Except Value.Fault Statement := do
  checkArguments function kind args
  match kind, args with
  | .claim, claim :: rest =>
    return ⟨kind, (Error.ofReason claim.plain (rest.headD .null)).message, [("claim", claim)]⟩
  | .audienceMismatch, [id, kid, audience] =>
    return ⟨kind, Error.mismatchMessage id kid audience.plain,
      [("expected_id", id), ("expected_kid", kid), ("audience", audience)]⟩
  | .credential, [index, reason] =>
    return ⟨kind, Error.embeddedMessage index.plain reason.plain, [("index", index)]⟩
  | kind, args => return ⟨kind, words args, []⟩

end Statement

end Attest
