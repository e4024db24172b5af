import Attest.Value.Fault
import Attest.Value.Object

/-! The fields of credentials, and credentials as JSON objects. A field whose value is empty is left
out of the object, and a member of an object that is no field is not read. -/

namespace Attest

namespace Credential

inductive Field where
  | context
  | id
  | type
  | issuer
  | issuanceDate
  | expirationDate
  | status
  | subject
  | schema
  | refreshService
  | termsOfUse
  | evidence
  | proof
  deriving DecidableEq, Repr

namespace Field

/-- All fields in the order in which they are written. -/
def all : List Field :=
  [context, id, type, issuer, issuanceDate, expirationDate, status, subject, schema,
    refreshService, termsOfUse, evidence, proof]

/-- The name by which a caller sets a field. -/
def name : Field → String
  | context => "context"
  | id => "id"
  | type => "type"
  | issuer => "issuer"
  | issuanceDate => "issuance_date"
  | expirationDate => "expiration_date"
  | status => "credential_status"
  | subject => "credential_subject"
  | schema => "credential_schema"
  | refreshService => "refresh_service"
  | termsOfUse => "terms_of_use"
  | evidence => "evidence"
  | proof => "proof"

/-- The name of the member of a JSON object that holds a field. -/
def member : Field → String
  | context => "@context"
  | id => "id"
  | type => "type"
  | issuer => "issuer"
  | issuanceDate => "issuanceDate"
  | expirationDate => "expirationDate"
  | status => "credentialStatus"
  | subject => "credentialSubject"
  | schema => "credentialSchema"
  | refreshService => "refreshService"
  | termsOfUse => "termsOfUse"
  | evidence => "evidence"
  | proof => "proof"

def ofName? (name : String) : Option Field := all.find? fun f => f.name == name

/-- The value of a field that is not given. -/
def default : Field → Value
  | id | issuer | issuanceDate | expirationDate => .text ""
  | subject => .object []
  | _ => .null

theorem mem_all (f : Field) : f ∈ all := by
  cases f <;> decide

theorem member_injective {f g : Field} (h : f.member = g.member) : f = g := by
  cases f <;> cases g <;> first | rfl | exact absurd h (by decide)

theorem isEmpty_default (f : Field) : f.default.isEmpty = true := by
  cases f <;> rfl

end Field

def get (c : Credential) : Field → Value
  | .context => c.context
  | .id => c.id
  | .type => c.type
  | .issuer => c.issuer
  | .issuanceDate => c.issuanceDate
  | .expirationDate => c.expirationDate
  | .status => c.status
  | .subject => c.subject
  | .schema => c.schema
  | .refreshService => c.refreshService
  | .termsOfUse => c.termsOfUse
  | .evidence => c.evidence
  | .proof => c.proof

def ofFields (value : Field → Value) : Credential :=
  ⟨value .context, value .id, value .type, value .issuer, value .issuanceDate,
    value .expirationDate, value .status, value .subject, value .schema, value .refreshService,
    value .termsOfUse, value .evidence, value .proof⟩

def set (c : Credential) (f : Field) (v : Value) : Credential :=
  ofFields fun g => if g = f then v else c.get g

@[simp] theorem get_ofFields (value : Field → Value) (f : Field) :
    (ofFields value).get f = value f := by
  cases f <;> rfl

@[simp] theorem ofFields_get (c : Credential) : ofFields c.get = c := by
  cases c
  rfl

theorem get_set (c : Credential) (f g : Field) (v : Value) :
    (c.set f v).get g = if g = f then v else c.get g := by
  rw [set, get_ofFields]

def empty : Credential := ofFields Field.default

instance : Inhabited Credential := ⟨empty⟩

def isEmpty (c : Credential) : Bool := Field.all.all fun f => (c.get f).isEmpty

/-- The fields of which the values are not empty, as members of an object. -/
def toObject (c : Credential) : Object :=
  Field.all.filterMap fun f =>
    if (c.get f).isEmpty then none else some (f.member, c.get f)

/-- The credential whose fields are the members of an object. -/
def ofMembers (o : Object) : Credential :=
  ofFields fun f => (Object.get? o f.member).getD f.default

/-- The credential that a value stands for, whose subject must be an object or null. -/
def ofValue : Value → Except Value.Fault Credential
  | .object o =>
    let c := ofMembers o
    match c.subject with
    | .object _ => .ok c
    | .null => .ok (c.set .subject (.object []))
    | v => .error (.subjectNotObject v.typeName)
  | v => .error (.notObject v.typeName)

/-- The credential whose fields a caller sets by their names. -/
def ofNamed : (fields : List (String × Value)) → Except Value.Fault Credential
  | [] => .ok empty
  | (name, v) :: rest =>
    match Field.ofName? name with
    | some f => (ofNamed rest).map fun c => c.set f v
    | none => .error (.unknownField "Credential" name)

def fields (c : Credential) : Object := Field.all.map fun f => (f.name, c.get f)

/-- The identifier that a subject has if it is a text, and else the empty text. -/
def identifierOf (subject : Value) : Except Value.Fault String :=
  if subject.isTruthy then
    match subject with
    | .object o =>
      match Object.get? o "id" with
      | some (.text s) => .ok s
      | _ => .ok ""
    | v => .error (.noAttribute v.operandTypeName "get")
  else .ok ""

def subjectId (c : Credential) : Except Value.Fault String := identifierOf c.subject

end Credential

end Attest
