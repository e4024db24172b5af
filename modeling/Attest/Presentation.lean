import Attest.Credential
import Attest.Value.Access

/-! Presentations: credentials that a holder shows to someone, as values and as JSON objects. -/

namespace Attest

/-- A verifiable presentation. A field may hold any value, for a presentation is read before it is
known to be well formed. -/
structure Presentation where
  context : Value
  id : Value
  holder : Value
  type : Value
  submission : Value
  credentials : Value
  proof : Value

namespace Presentation

inductive Field where
  | context
  | id
  | holder
  | type
  | submission
  | credentials
  | proof
  deriving DecidableEq, Repr

namespace Field

/-- All fields in the order in which they are written. -/
def all : List Field := [context, id, holder, type, submission, credentials, proof]

/-- The name by which a caller sets a field. -/
def name : Field → String
  | context => "context"
  | id => "id"
  | holder => "holder"
  | type => "type"
  | submission => "presentation_submission"
  | credentials => "verifiable_credential"
  | proof => "proof"

/-- The name of the member of a JSON object that holds a field. -/
def member : Field → String
  | context => "@context"
  | credentials => "verifiableCredential"
  | f => f.name

def ofName? (name : String) : Option Field := all.find? fun f => f.name == name

/-- The value of a field that is not given. -/
def default : Field → Value
  | id | holder => .text ""
  | credentials => .list []
  | _ => .null

theorem mem_all (f : Field) : f ∈ all := by
  cases f <;> decide

theorem member_injective {f g : Field} (h : f.member = g.member) : f = g := by
  cases f <;> cases g <;> first | rfl | exact absurd h (by decide)

theorem isEmpty_default (f : Field) : f.default.isEmpty = true := by
  cases f <;> rfl

end Field

def get (p : Presentation) : Field → Value
  | .context => p.context
  | .id => p.id
  | .holder => p.holder
  | .type => p.type
  | .submission => p.submission
  | .credentials => p.credentials
  | .proof => p.proof

def ofFields (value : Field → Value) : Presentation :=
  ⟨value .context, value .id, value .holder, value .type, value .submission, value .credentials,
    value .proof⟩

def set (p : Presentation) (f : Field) (v : Value) : Presentation :=
  ofFields fun g => if g = f then v else p.get g

@[simp] theorem get_ofFields (value : Field → Value) (f : Field) :
    (ofFields value).get f = value f := by
  cases f <;> rfl

@[simp] theorem ofFields_get (p : Presentation) : ofFields p.get = p := by
  cases p
  rfl

theorem get_set (p : Presentation) (f g : Field) (v : Value) :
    (p.set f v).get g = if g = f then v else p.get g := by
  rw [set, get_ofFields]

def empty : Presentation := ofFields Field.default

instance : Inhabited Presentation := ⟨empty⟩

def isEmpty (p : Presentation) : Bool := Field.all.all fun f => (p.get f).isEmpty

/-- A credential as an object, and any other value as it is. -/
def plainCredential : Value → Value
  | .credential c => .object c.toObject
  | v => v

/-- The fields of which the values are not empty, as members of an object. The credentials are
written as a list, each as an object. -/
def toObject (p : Presentation) : Except Value.Fault Object := do
  let plain (f : Field) : Option (String × Value) :=
    if (p.get f).isEmpty then none else some (f.member, p.get f)
  if p.credentials.isEmpty then return Field.all.filterMap plain
  let credentials ← p.credentials.elements
  return Field.all.filterMap fun f =>
    if f = .credentials then some (f.member, .list (credentials.map plainCredential)) else plain f

/-- The presentation whose fields are the members of an object. -/
def ofMembers (o : Object) : Presentation :=
  ofFields fun f => (Object.get? o f.member).getD f.default

/-- The presentation that a value stands for. -/
def ofValue : Value → Except Value.Fault Presentation
  | .object o =>
    let p := ofMembers o
    match p.credentials with
    | .list _ => .ok p
    | .null => .ok (p.set .credentials (.list []))
    -- A single credential is taken for a list of one.
    | v => .ok (p.set .credentials (.list [v]))
  | v => .error (.notObject v.typeName)

/-- The presentation whose fields a caller sets by their names. -/
def ofNamed : (fields : List (String × Value)) → Except Value.Fault Presentation
  | [] => .ok empty
  | (name, v) :: rest =>
    match Field.ofName? name with
    | some f => (ofNamed rest).map fun p => p.set f v
    | none => .error (.unknownField "Presentation" name)

def fields (p : Presentation) : Object := Field.all.map fun f => (f.name, p.get f)

end Presentation

end Attest
