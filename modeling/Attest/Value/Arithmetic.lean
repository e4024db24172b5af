import Attest.Value.Fault
import Attest.Value.Basic

/-! Sums and the order of values that count as numbers, with the faults of other values. True counts
as one and false as zero. -/

namespace Attest.Value

/-- The number that a value is or counts as. -/
def asNumber? : Value → Option Number
  | bool b => some (.int (if b then 1 else 0))
  | int i => some (.int i)
  | float x => some (.float x)
  | _ => none

/-- The sum of a number and a value, asked for by an operator. -/
def addTo (operator : String) (x : Number) (v : Value) : Except Fault Number :=
  match v.asNumber? with
  | some y =>
    match x.add? y with
    | some sum => .ok sum
    | none => .error .tooLarge
  | none => .error (.notAdded operator (ofNumber x).operandTypeName v.operandTypeName)

/-- A number is at least as large as a value. -/
def isAtMost (v : Value) (x : Number) : Except Fault Bool :=
  match v.asNumber? with
  | some y => .ok (y.le x)
  | none => .error (.notOrdered ">=" (ofNumber x).operandTypeName v.operandTypeName)

/-- A value is above zero. -/
def isPositive (v : Value) : Except Fault Bool :=
  match v.asNumber? with
  | some x => .ok x.isPositive
  | none => .error (.notOrdered ">" v.operandTypeName (int 0).operandTypeName)

end Attest.Value
