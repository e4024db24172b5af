import Attest.Error
import Attest.Presentation
import Attest.Value.Edit

/-! What credentials and presentations have under a name without having been given it: the fields that
are not given, the names of their members, their methods, and names with two underscores at both ends,
which are reserved. -/

namespace Attest

/-- A field of a credential or a presentation. -/
structure ModelField where
  name : String
  member : String
  default : Value

namespace Subject

def typeName : Subject → String
  | credential => "Credential"
  | presentation => "Presentation"

def fields : Subject → List ModelField
  | credential => Credential.Field.all.map fun f => ⟨f.name, f.member, f.default⟩
  | presentation => Presentation.Field.all.map fun f => ⟨f.name, f.member, f.default⟩

/-- The names of the members for those fields that have another name there. -/
def memberNames (s : Subject) : Object :=
  s.fields.filterMap fun f => if f.name = f.member then none else some (f.name, .text f.member)

end Subject

/-- Something that is there without having been given. -/
inductive Builtin where
  | value (v : Value)
  | method
  | type
  | internal (typeName : String)

namespace Builtin

/-- The fault of an edit of something that is no value. -/
def refusal (s : Subject) (b : Builtin) (e : Edit) : Value.Fault :=
  match b, e with
  | value v, e => e.refusal v.operandTypeName
  | method, .append _ => e.refusal "function"
  | method, e => e.refusal "method"
  | type, .append _ => .typeLacksAttribute s.typeName "append"
  | type, e => e.refusal "type"
  | internal typeName, e => e.refusal typeName

def methods : List String :=
  ["is_empty", "to_dict", "from_dict", "__init__", "__repr__", "__eq__"]

/-- The reserved names of functions that belong to single models. -/
def wrappers : List String :=
  ["__delattr__", "__setattr__", "__getattribute__", "__ge__", "__gt__", "__le__", "__lt__",
    "__ne__", "__str__"]

/-- The reserved names of functions that belong to all models. -/
def functions : List String :=
  ["__dir__", "__format__", "__getstate__", "__init_subclass__", "__new__", "__reduce__",
    "__reduce_ex__", "__sizeof__", "__subclasshook__"]

/-- What is there under a name that is no name of a field. -/
def ofName? (s : Subject) (name : String) : Option Builtin :=
  if methods.contains name then some .method
  else if wrappers.contains name then some (.internal "method-wrapper")
  else if functions.contains name then some (.internal "builtin_function_or_method")
  else match name with
  | "__class__" => some .type
  | "_JSON_NAMES" => some (.value (.object s.memberNames))
  | "__annotations__" | "__dataclass_fields__" => some (.value (.object []))
  | "__doc__" | "__module__" => some (.value (.text ""))
  | "__hash__" => some (.value .null)
  | "__match_args__" => some (.internal "tuple")
  | "__dataclass_params__" => some (.internal "_DataclassParams")
  | _ => none

/-- What is there under a name. -/
def find? (s : Subject) (name : String) : Option Builtin :=
  match s.fields.find? fun f => f.name == name with
  -- A field that is an object or a list by default is each model's own, and gone once it is lost.
  | some ⟨_, _, .object _⟩ => none
  | some ⟨_, _, .list _⟩ => none
  | some f => some (.value f.default)
  | none => ofName? s name

end Builtin

end Attest
