import Attest.Text.Split
import Attest.Value.Fault
import Attest.Value.Object

/-! Operations on values of any type, with the fault of those types that they are not made for. -/

namespace Attest.Value

/-- The values that a loop over a value goes through. -/
def elements : Value → Except Fault (List Value)
  | list items => .ok items
  | object members => .ok (members.map fun m => text m.1)
  | text s => .ok (s.toList.map fun c => text (String.singleton c))
  | v => .error (.notIterable v.operandTypeName)

/-- How many values a loop over a value goes through. -/
def size : Value → Except Fault Nat
  | list items => .ok items.length
  | object members => .ok members.length
  | text s => .ok s.length
  | v => .error (.noLength v.operandTypeName)

/-- A value can be looked up: it is none that may change. -/
def isHashable : Value → Bool
  | list _ => false
  | object _ => false
  | credential _ => false
  | _ => true

/-- A value has a name as a member, as an item or as a part of a text. -/
def hasName (v : Value) (name : String) : Except Fault Bool :=
  match v with
  | object o => .ok (Object.contains o name)
  | list items => .ok (items.any fun v => v.text? == some name)
  | text s => .ok (Text.occursIn name.toList s.toList)
  | v => .error (.notContainer v.operandTypeName)

/-- A member of an object; lists and texts have no members. -/
def member (v : Value) (name : String) : Except Fault Value :=
  match v with
  | object o =>
    match Object.get? o name with
    | some w => .ok w
    | none => .error (.missingMember name)
  | list items => .error (.notIndex (list items).operandTypeName (text name).operandTypeName)
  | text s => .error (.notIndex (text s).operandTypeName (text name).operandTypeName)
  | v => .error (.notSubscriptable v.operandTypeName)

/-- The name that a value is where members are looked up by name. What is no text names none. -/
def asName? (v : Value) : Except Fault (Option String) :=
  if v.isHashable then .ok v.text? else .error (.notHashable v.operandTypeName)

/-- The object that a value is, where an operation on objects is asked for. -/
def asObject (v : Value) (operation : String) : Except Fault Object :=
  match v with
  | object o => .ok o
  | v => .error (.noAttribute v.operandTypeName operation)

/-- The text that a value is, where an operation on texts is asked for. -/
def asText (v : Value) (operation : String) : Except Fault String :=
  match v with
  | text s => .ok s
  | v => .error (.noAttribute v.operandTypeName operation)

end Attest.Value
