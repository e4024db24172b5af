import Attest.Model.Builtin

/-! Credentials and presentations that are edited attribute by attribute. The fields are attributes,
and a model may be given others, which are not written but can stand in the way of its methods. -/

namespace Attest

/-- A credential or a presentation with all its attributes. -/
structure Model where
  subject : Subject
  attributes : Object

namespace Model

def ofCredential (c : Credential) : Model := ⟨.credential, c.fields⟩

def ofPresentation (p : Presentation) : Model := ⟨.presentation, p.fields⟩

def ofValue (s : Subject) (v : Value) : Except Value.Fault Model :=
  match s with
  | .credential => (Credential.ofValue v).map ofCredential
  | .presentation => (Presentation.ofValue v).map ofPresentation

/-- The model whose fields a caller sets by their names. -/
def ofNamed (s : Subject) (fields : List (String × Value)) : Except Value.Fault Model :=
  match s with
  | .credential => (Credential.ofNamed fields).map ofCredential
  | .presentation => (Presentation.ofNamed fields).map ofPresentation

/-- The name that a value is, if it is one. -/
def attributeName (name : Value) : Except Value.Fault String :=
  match name with
  | .text s => .ok s
  | v => .error (.attributeNotText v.operandTypeName)

/-- The name is that of the identifier of the subject, which a credential computes. -/
def isComputed (m : Model) (name : String) : Bool :=
  m.subject == .credential && name == "subject_id"

/-- The value of an attribute that is not computed. -/
def stored (m : Model) (name : String) : Except Value.Fault Value :=
  match Object.get? m.attributes name, Builtin.find? m.subject name with
  | some v, _ => .ok v
  | none, some (.value v) => .ok v
  | none, _ => .error (.noAttribute m.subject.typeName name)

def get (m : Model) (name : String) : Except Value.Fault Value :=
  if name = "__dict__" then .ok (.object m.attributes)
  else if name = "__weakref__" then .ok .null
  else if m.isComputed name then do
    return .text (← Credential.identifierOf (← m.stored "credential_subject"))
  else m.stored name

/-- A model with an attribute of the given value. -/
def give (m : Model) (name : String) (v : Value) : Model :=
  { m with attributes := Object.set m.attributes name v }

/-- Gives an attribute a value, which some reserved names and what is computed do not allow. -/
def set (m : Model) (name : String) (v : Value) : Except Value.Fault Model :=
  if name = "__class__" then .error (.notClass v.operandTypeName)
  else if name = "__weakref__" then .error (.notWritable m.subject.typeName name)
  else if name = "__dict__" then
    match v with
    | .object o => .ok { m with attributes := o }
    | v => .error (.notDictionary v.operandTypeName)
  else if m.isComputed name then .error (.noSetter m.subject.typeName name)
  else .ok (m.give name v)

/-- What a name leads to if that is no value. -/
def builtin? (m : Model) (name : String) : Option Builtin :=
  if name != "__class__" && Object.contains m.attributes name then none
  else
    match Builtin.find? m.subject name with
    | some (.value _) => none
    | b => b

def edit (m : Model) (name : String) (e : Edit) : Except Value.Fault Model :=
  match m.builtin? name with
  | some b => .error (b.refusal m.subject e)
  | none => do m.set name (← e.apply (← m.get name))

/-- A method can be called unless an attribute has its name. -/
def checkMethod (m : Model) (method : String) : Except Value.Fault Unit :=
  match Object.get? m.attributes method with
  | some v => .error (.notCallable v.operandTypeName)
  | none => .ok ()

def fields (m : Model) : Except Value.Fault Object :=
  m.subject.fields.mapM fun f => do return (f.name, ← m.get f.name)

def isEmpty (m : Model) : Except Value.Fault Bool := do
  m.checkMethod "is_empty"
  return (← m.fields).all fun f => f.2.isEmpty

/-- The identifier of the subject: that of a credential, or an attribute of this name. -/
def subjectId (m : Model) : Except Value.Fault Value := m.get "subject_id"

/-- The name of the member that holds a field, looked up among names. -/
def memberName (names : Value) (f : ModelField) : Except Value.Fault String := do
  match Object.get? (← names.asObject "get") f.name with
  | some name => Edit.memberName name
  | none => return f.name

/-- An object with the member for a field, unless the value of the field is empty. -/
def addMember (m : Model) (names : Value) (o : Object) (f : ModelField) :
    Except Value.Fault Object := do
  let v ← m.get f.name
  if v.isEmpty then return o else return Object.set o (← memberName names f) v

/-- An object whose credentials are written as a list, each as an object. -/
def plainCredentials (o : Object) : Except Value.Fault Object :=
  let name := Presentation.Field.credentials.member
  match Object.get? o name with
  | some v => do return Object.set o name (.list ((← v.elements).map Presentation.plainCredential))
  | none => .ok o

/-- The fields of which the values are not empty, as members of an object. -/
def toObject (m : Model) : Except Value.Fault Object := do
  m.checkMethod "to_dict"
  let names ← m.get "_JSON_NAMES"
  let o ← m.subject.fields.foldlM (m.addMember names) []
  match m.subject with
  | .credential => return o
  | .presentation => plainCredentials o

end Model

end Attest
