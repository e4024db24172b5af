import Attest.Value.Basic

/-! Look-up and change of the members of objects. A member that is set again keeps its place, a new
one comes last. -/

namespace Attest.Object

def get? (o : Object) (name : String) : Option Value := List.lookup name o

/-- The value of a member, null if there is none. -/
def getD (o : Object) (name : String) : Value := (get? o name).getD .null

def contains (o : Object) (name : String) : Bool := (get? o name).isSome

def set (o : Object) (name : String) (v : Value) : Object :=
  match o with
  | [] => [(name, v)]
  | (n, w) :: rest => if n == name then (name, v) :: rest else (n, w) :: set rest name v

def erase (o : Object) (name : String) : Object := o.filter fun m => m.1 != name

def names (o : Object) : List String := o.map Prod.fst

/-- The object that results when members are set one after the other. -/
def ofMembers (members : List (String × Value)) : Object :=
  members.foldl (fun o m => set o m.1 m.2) []

@[simp] theorem get?_nil (name : String) : get? [] name = none := rfl

theorem get?_cons (n name : String) (v : Value) (rest : Object) :
    get? ((n, v) :: rest) name = if name = n then some v else get? rest name := by
  by_cases h : name = n
  · simp [get?, h]
  · have hne : (name == n) = false := by simpa using h
    simp [get?, List.lookup_cons, h, hne]

theorem get?_set_self (o : Object) (name : String) (v : Value) :
    get? (set o name v) name = some v := by
  induction o with
  | nil => simp [set, get?_cons]
  | cons m rest ih =>
    obtain ⟨n, w⟩ := m
    by_cases h : n = name
    · simp [set, h, get?_cons]
    · have h' : ¬name = n := fun e => h e.symm
      simp [set, h, get?_cons, h', ih]

theorem get?_set_of_ne {o : Object} {name other : String} {v : Value} (h : other ≠ name) :
    get? (set o name v) other = get? o other := by
  induction o with
  | nil => simp [set, get?_cons, h]
  | cons m rest ih =>
    obtain ⟨n, w⟩ := m
    by_cases hn : n = name
    · subst hn
      simp [set, get?_cons, h]
    · simp [set, hn, get?_cons, ih]

theorem get?_set (o : Object) (name other : String) (v : Value) :
    get? (set o name v) other = if other = name then some v else get? o other := by
  by_cases h : other = name
  · rw [if_pos h, h, get?_set_self]
  · rw [if_neg h, get?_set_of_ne h]

theorem get?_erase_self (o : Object) (name : String) : get? (erase o name) name = none := by
  induction o with
  | nil => rfl
  | cons m rest ih =>
    obtain ⟨n, w⟩ := m
    by_cases h : n = name
    · simpa [erase, h] using ih
    · have h' : ¬name = n := fun e => h e.symm
      have hcons : erase ((n, w) :: rest) name = (n, w) :: erase rest name := by
        simp [erase, h]
      rw [hcons, get?_cons, if_neg h', ih]

theorem get?_erase_of_ne {o : Object} {name other : String} (h : other ≠ name) :
    get? (erase o name) other = get? o other := by
  induction o with
  | nil => rfl
  | cons m rest ih =>
    obtain ⟨n, w⟩ := m
    by_cases hn : n = name
    · subst hn
      have hcons : erase ((n, w) :: rest) n = erase rest n := by simp [erase]
      rw [hcons, get?_cons, if_neg h, ih]
    · have hcons : erase ((n, w) :: rest) name = (n, w) :: erase rest name := by
        simp [erase, hn]
      rw [hcons, get?_cons, get?_cons, ih]

/-- A new member comes last. -/
theorem set_of_not_mem {o : Object} {name : String} (v : Value) (h : name ∉ names o) :
    set o name v = o ++ [(name, v)] := by
  induction o with
  | nil => rfl
  | cons m rest ih =>
    obtain ⟨n, w⟩ := m
    simp only [names, List.map_cons, List.mem_cons, not_or] at h
    simp [set, Ne.symm h.1, ih h.2]

end Attest.Object
