import Attest.Text.Quoted

/-! What can go wrong when an operation meets a value of a type that it is not made for, or a function
is called with too few or too many arguments. Types are given by their names. -/

namespace Attest.Value

/-- Why an operation on values has no result. -/
inductive Fault where
  | noAttribute (type name : String)
  | typeLacksAttribute (type name : String)
  | noSetter (type name : String)
  | notWritable (type name : String)
  | notClass (type : String)
  | notDictionary (type : String)
  | attributeNotText (type : String)
  | notCallable (type : String)
  | missingArguments (function : String) (names : List String)
  | tooManyArguments (function : String) (least most given : Nat)
  | noLength (type : String)
  | notIterable (type : String)
  | notContainer (type : String)
  | notHashable (type : String)
  | notOrdered (relation left right : String)
  | notAdded (operator left right : String)
  | tooLarge
  | notSubscriptable (type : String)
  | noItemAssignment (type : String)
  | noItemDeletion (type : String)
  | notIndex (container key : String)
  | indexTooLarge
  | indexOutOfRange
  | missingMember (name : String)
  | missingKey (words : String)
  | notBytesLike (type : String)
  | noBytes (type : String)
  | notWhole (type : String)
  | notByte
  | notJoinable (index : Nat) (type : String)
  | notObject (type : String)
  | subjectNotObject (type : String)
  | unknownField (model name : String)
  | pairLength (index length : Nat)
  | notPair (index : Nat)
  deriving DecidableEq, Repr

namespace Fault

/-- Words in quotes with commas and a conjunction between them. -/
def enumeration : List String → String
  | [] => ""
  | [a] => "'" ++ a ++ "'"
  | [a, b] => "'" ++ a ++ "' and '" ++ b ++ "'"
  | names =>
    String.join (names.dropLast.map fun a => "'" ++ a ++ "', ") ++ "and '" ++ names.getLastD "" ++ "'"

/-- The numbers of arguments that a function takes, in words. -/
def argumentCounts (least most : Nat) : String :=
  if least = most then s!"{most} positional argument" ++ (if most = 1 then "" else "s")
  else s!"from {least} to {most} positional arguments"

def message : Fault → String
  | noAttribute type name => "'" ++ type ++ "' object has no attribute '" ++ name ++ "'"
  | typeLacksAttribute type name => "type object '" ++ type ++ "' has no attribute '" ++ name ++ "'"
  | noSetter type name => "property '" ++ name ++ "' of '" ++ type ++ "' object has no setter"
  | notWritable type name => "attribute '" ++ name ++ "' of '" ++ type ++ "' objects is not writable"
  | notClass type => "__class__ must be set to a class, not '" ++ type ++ "' object"
  | notDictionary type => "__dict__ must be set to a dictionary, not a '" ++ type ++ "'"
  | attributeNotText type => "attribute name must be string, not '" ++ type ++ "'"
  | notCallable type => "'" ++ type ++ "' object is not callable"
  | missingArguments function names =>
    function ++ s!"() missing {names.length} required positional argument" ++
      (if names.length = 1 then "" else "s") ++ ": " ++ enumeration names
  | tooManyArguments function least most given =>
    function ++ "() takes " ++ argumentCounts least most ++ s!" but {given} " ++
      (if given = 1 then "was" else "were") ++ " given"
  | noLength type => "object of type '" ++ type ++ "' has no len()"
  | notIterable type => "'" ++ type ++ "' object is not iterable"
  | notContainer type => "argument of type '" ++ type ++ "' is not iterable"
  | notHashable type => "unhashable type: '" ++ type ++ "'"
  | notOrdered relation left right =>
    "'" ++ relation ++ "' not supported between instances of '" ++ left ++ "' and '" ++ right ++ "'"
  | notAdded operator left right =>
    "unsupported operand type(s) for " ++ operator ++ ": '" ++ left ++ "' and '" ++ right ++ "'"
  | tooLarge => "int too large to convert to float"
  | notSubscriptable type => "'" ++ type ++ "' object is not subscriptable"
  | noItemAssignment type => "'" ++ type ++ "' object does not support item assignment"
  | noItemDeletion type => "'" ++ type ++ "' object does not support item deletion"
  | notIndex "str" key => "string indices must be integers, not '" ++ key ++ "'"
  | notIndex container key => container ++ " indices must be integers or slices, not " ++ key
  | indexTooLarge => "cannot fit 'int' into an index-sized integer"
  | indexOutOfRange => "list assignment index out of range"
  | missingMember name => Text.quote name
  | missingKey words => words
  | notBytesLike type =>
    "argument should be a bytes-like object or ASCII string, not '" ++ type ++ "'"
  | noBytes type => "cannot convert '" ++ type ++ "' object to bytes"
  | notWhole type => "'" ++ type ++ "' object cannot be interpreted as an integer"
  | notByte => "bytes must be in range(0, 256)"
  | notJoinable index type => s!"sequence item {index}: expected str instance, " ++ type ++ " found"
  | notObject type => "Expected a JSON object, got " ++ type
  | subjectNotObject type => "credentialSubject must be a JSON object, got " ++ type
  | unknownField model name =>
    model ++ ".__init__() got an unexpected keyword argument '" ++ name ++ "'"
  | pairLength index length =>
    s!"dictionary update sequence element #{index} has length {length}; 2 is required"
  | notPair index => s!"cannot convert dictionary update sequence element #{index} to a sequence"

end Fault

/-- Checks how many arguments a function is given for its parameters, those that must be given having
names. -/
def checkArguments (function : String) (required : List String) (optional given : Nat) :
    Except Fault Unit :=
  if given < required.length then .error (.missingArguments function (required.drop given))
  else if required.length + optional < given then
    .error (.tooManyArguments function required.length (required.length + optional) given)
  else .ok ()

/-- Arguments are refused exactly if there are too few or too many of them. -/
theorem checkArguments_eq_ok_iff (function : String) (required : List String)
    (optional given : Nat) :
    checkArguments function required optional given = .ok () ↔
      required.length ≤ given ∧ given ≤ required.length + optional := by
  unfold checkArguments
  split
  · simp; omega
  · split
    · simp; omega
    · simp; omega

end Attest.Value
