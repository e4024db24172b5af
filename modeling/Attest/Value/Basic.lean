import Attest.Calendar.DateTime
import Attest.Number.Binary64

/-! The values that claims hold: those of JSON, points in time, and credentials themselves. Whole
numbers have any size and are kept apart from floating point numbers, and the members of an object
keep their order. -/

namespace Attest

mutual

/-- A verifiable credential: statements about a subject, with the circumstances of their issue. A
field may hold any value, for a credential is read before it is known to be well formed. -/
structure Credential where
  context : Value
  id : Value
  type : Value
  issuer : Value
  issuanceDate : Value
  expirationDate : Value
  status : Value
  subject : Value
  schema : Value
  refreshService : Value
  termsOfUse : Value
  evidence : Value
  proof : Value

/-- A value of a claim. Values are trees of any depth: that two places may share one object, and that
recursion may be limited, is outside the model. A text is a sequence of Unicode scalar values, so
surrogates are no part of it. -/
inductive Value where
  | null
  | bool (b : Bool)
  | int (i : Int)
  | float (x : Binary64)
  | text (s : String)
  | list (items : List Value)
  | object (members : List (String × Value))
  | time (t : DateTime)
  | credential (c : Credential)

end

/-- The members of an object, in their order; each name occurs once. -/
abbrev Object := List (String × Value)

namespace Value

instance : Inhabited Value := ⟨null⟩

def typeName : Value → String
  | null => "NoneType"
  | bool _ => "bool"
  | int _ => "int"
  | float _ => "float"
  | text _ => "str"
  | list _ => "list"
  | object _ => "dict"
  | time _ => "datetime"
  | credential _ => "Credential"

/-- The name of the type of a value in messages about operations on it. -/
def operandTypeName : Value → String
  | time _ => "datetime.datetime"
  | v => v.typeName

/-- The name of the type of a value after the name of the module that defines it. -/
def qualifiedTypeName : Value → String
  | credential _ => "vcjwt.models.Credential"
  | v => v.operandTypeName

/-- The value stands for a field that is not there: it is null, or a text, list or object without
content. -/
def isEmpty : Value → Bool
  | null => true
  | text s => s.isEmpty
  | list items => items.isEmpty
  | object members => members.isEmpty
  | _ => false

/-- The value counts as true: it is not empty, false or zero. -/
def isTruthy : Value → Bool
  | bool b => b
  | int i => i != 0
  | float x => x.isNonzero
  | v => !v.isEmpty

def isNull : Value → Bool
  | null => true
  | _ => false

def isText : Value → Bool
  | text _ => true
  | _ => false

theorem exists_of_isText {v : Value} (h : v.isText = true) : ∃ s, v = text s := by
  cases v with
  | text s => exact ⟨s, rfl⟩
  | _ => cases h

def text? : Value → Option String
  | text s => some s
  | _ => none

/-- The members of the object that a value is. -/
def object? : Value → Option Object
  | object members => some members
  | _ => none

def number? : Value → Option Number
  | int i => some (.int i)
  | float x => some (.float x)
  | _ => none

def ofNumber : Number → Value
  | .int i => int i
  | .float x => float x

end Value

end Attest
