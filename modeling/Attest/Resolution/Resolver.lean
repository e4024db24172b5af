import Attest.Key.DidKey
import Attest.Key.Jwk
import Attest.Resolution.Context
import Attest.Resolution.Document

/-! Resolvers: those who give the document of an identifier. The document of an identifier that is a
key is made from the identifier itself. -/

namespace Attest

/-- Someone who resolves identifiers. -/
structure Resolver where
  resolve : Option Context → (did : Value) → Run Document

/-- The document of the identifier of a key. -/
def PublicKey.document (key : PublicKey) (did : String) : Document :=
  ⟨.text did, [⟨.text (DidKey.verificationMethod did), .text "JsonWebKey2020", .text did,
    .object key.toJwk⟩]⟩

namespace Resolver

/-- The document of an identifier that is a key, a number sign and what follows it not counting. -/
def keyDocument (did : String) : Except Error Document :=
  let base := DidKey.withoutFragment did
  if Text.beginsWith DidKey.scheme base then
    match DidKey.decode base with
    | .ok key => .ok (key.document base)
    | .error e =>
      .error (if e.kind.isA .badValue then .resolution (.key did e) else .ofKey e)
  else .error (.resolution (.unsupportedMethod did))

/-- The resolver of identifiers that are keys. -/
def ofKeys : Resolver where
  resolve context did := do
    Context.checkSome context
    let did ← Run.ofExcept ((did.asText "split").mapError .ofFault)
    let document ← Run.ofExcept (keyDocument did)
    Run.log (.resolved (DidKey.withoutFragment did))
    return document

/-- The resolver that knows some documents. -/
def ofTable (documents : List (String × Document)) : Resolver where
  resolve context did := do
    Context.checkSome context
    if !did.isHashable then Run.fail (.ofFault (.notHashable did.operandTypeName))
    else
      match did.text?.bind fun s => List.lookup s documents with
      | some document => return document
      | none => Run.fail (.resolution (.notFound did.plain))

/-- A resolver that refuses everything with the same words. -/
def refusing (words : String) : Resolver where
  resolve context _ := do
    Context.checkSome context
    Run.fail (.stated .external words)

/-- Asks a resolver, if there is one, for a document; the asking is noted, whatever the resolver
does. -/
def ask (resolver : Option Resolver) (context : Option Context) (did : Value) : Run Document :=
  match resolver with
  | none => Run.fail (.ofFault (.noAttribute Value.null.operandTypeName "resolve"))
  | some r => do
    Run.noteAsked did
    Run.keepAsked (r.resolve context did)

end Resolver

end Attest
