import Attest.Value.Access
import Attest.Value.Arithmetic
import Attest.Value.Display

/-! Changes of the content of a value: objects have members that are put and deleted, lists have items
that are replaced, deleted and appended, and every other value refuses. -/

namespace Attest

/-- A change of the content of a value. -/
inductive Edit where
  | put (key value : Value)
  | delete (key : Value)
  | append (value : Value)

namespace Edit

/-- The fault of an edit of something that has no content of the kind, by the name of its type. -/
def refusal (type : String) : Edit → Value.Fault
  | put _ _ => .noItemAssignment type
  | delete _ => .noItemDeletion type
  | append _ => .noAttribute type "append"

/-- The first position that no list has. -/
def positionLimit : Int := 2 ^ 63

/-- The position that a key stands for in a list of the given length. -/
def position (length : Nat) (key : Value) : Except Value.Fault Nat :=
  match key with
  | .bool b => inRange (if b then 1 else 0)
  | .int i => inRange i
  | v => .error (.notIndex (Value.list []).operandTypeName v.operandTypeName)
where
  inRange (i : Int) : Except Value.Fault Nat :=
    if i < -positionLimit ∨ positionLimit ≤ i then .error .indexTooLarge
    else
      -- Negative positions count from the end.
      let p := if i < 0 then i + length else i
      if 0 ≤ p ∧ p < length then .ok p.toNat else .error .indexOutOfRange

/-- The name of the member that a key stands for. -/
def memberName (key : Value) : Except Value.Fault String :=
  if key.isHashable then .ok key.plain else .error (.notHashable key.operandTypeName)

def missing (key : Value) : Value.Fault :=
  match key with
  | .text name => .missingMember name
  | v => .missingKey v.exact

/-- An object without the member that a key stands for. -/
def deleteMember (o : Object) (key : Value) : Except Value.Fault Object := do
  let name ← memberName key
  if Object.contains o name then return Object.erase o name else throw (missing key)

theorem deleteMember_of_get? {o : Object} {name : String} {v : Value}
    (h : Object.get? o name = some v) : deleteMember o (.text name) = .ok (Object.erase o name) := by
  show (if Object.contains o name then _ else _) = _
  rw [if_pos (by simp [Object.contains, h])]
  rfl

/-- The value after an edit. -/
def apply (e : Edit) (v : Value) : Except Value.Fault Value :=
  match v, e with
  | .object o, put key w => do return .object (Object.set o (← memberName key) w)
  | .object o, delete key => do return .object (← deleteMember o key)
  | .list items, put key w => do return .list (items.set (← position items.length key) w)
  | .list items, delete key => do return .list (items.eraseIdx (← position items.length key))
  | .list items, append w => .ok (.list (items ++ [w]))
  | v, e => .error (e.refusal v.operandTypeName)

end Edit

end Attest
