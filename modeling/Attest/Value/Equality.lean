import Attest.Value.Object

/-! Equality of values as numbers, texts and collections: a whole number equals a floating point
number of the same size, true and false equal one and zero, the members of objects may stand in any
order, and points in time are compared by the instant unless the offset of only one is known. -/

namespace Attest.Value

/-- The whole number that a value is or counts as. -/
def whole? : Value → Option Int
  | bool b => some (if b then 1 else 0)
  | int i => some i
  | _ => none

def sameTime (t u : DateTime) : Bool :=
  t.offset.isSome == u.offset.isSome && t.instant == u.instant

/-- Values that are neither collections nor credentials are equal. -/
def sameScalar (v w : Value) : Bool :=
  match v, w with
  | null, null => true
  | float x, float y => x.equals y
  | float x, other => (whole? other).any fun i => x.equalsInt i
  | other, float y => (whole? other).any fun i => y.equalsInt i
  | text s, text t => s == t
  | time t, time u => sameTime t u
  | other, another =>
    match whole? other, whole? another with
    | some i, some j => i == j
    | _, _ => false

mutual

def same : Value → Value → Bool
  | list xs, list ys => sameItems xs ys
  | object ms, object ns => ms.length == ns.length && sameMembers ms ns
  | credential ⟨context, id, type, issuer, issuanceDate, expirationDate, status, subject, schema,
      refreshService, termsOfUse, evidence, proof⟩, credential d =>
    same context d.context && same id d.id && same type d.type && same issuer d.issuer &&
      same issuanceDate d.issuanceDate && same expirationDate d.expirationDate &&
      same status d.status && same subject d.subject && same schema d.schema &&
      same refreshService d.refreshService && same termsOfUse d.termsOfUse &&
      same evidence d.evidence && same proof d.proof
  | v, w => sameScalar v w

def sameItems : List Value → List Value → Bool
  | [], [] => true
  | v :: vs, w :: ws => same v w && sameItems vs ws
  | _, _ => false

/-- Each member of the first object equals the member of the same name of the second one. -/
def sameMembers : List (String × Value) → Object → Bool
  | [], _ => true
  | (name, v) :: rest, other =>
    (match Object.get? other name with
      | some w => same v w
      | none => false) && sameMembers rest other

end

end Attest.Value
