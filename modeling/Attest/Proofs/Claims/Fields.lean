import Attest.Proofs.Claims.Reading
import Attest.Proofs.Value.WellFormed

/-! Credentials and presentations as objects, and back: a field whose value is not empty is found again,
and one whose value is empty gets the value of a field that is not given. A field that was moved to a
claim of its own is found there. -/

namespace Attest

namespace Value

/-- The value of a field, if it is not empty. -/
def nonempty? (v : Value) : Option Value := if v.isEmpty then none else some v

theorem nonempty?_eq_some_iff {v w : Value} :
    v.nonempty? = some w ↔ v = w ∧ w.isEmpty = false := by
  unfold nonempty?
  cases hv : v.isEmpty with
  | true =>
    refine iff_of_false nofun ?_
    rintro ⟨rfl, hw⟩
    exact absurd (hv.symm.trans hw) (by decide)
  | false =>
    constructor
    · intro h
      cases h
      exact ⟨rfl, hv⟩
    · rintro ⟨rfl, -⟩
      rfl

theorem nonempty?_eq_none_iff {v : Value} : v.nonempty? = none ↔ v.isEmpty = true := by
  unfold nonempty?
  split <;> simp_all

theorem nonempty?_eq_some {v w : Value} (h : v.nonempty? = some w) : v = w :=
  (nonempty?_eq_some_iff.mp h).1

theorem map_nonempty? {α : Type} (v : Value) (g : Value → α) :
    v.nonempty?.map g = if v.isEmpty then none else some (g v) := by
  unfold nonempty?
  split <;> rfl

/-- A value, unless it is empty: then the value of a field that is not given. -/
def orDefault (v default : Value) : Value := if v.isEmpty then default else v

theorem getD_nonempty? (v default : Value) :
    v.nonempty?.getD default = v.orDefault default := by
  unfold nonempty? orDefault
  split <;> rfl

/-- An empty text is what stands for no text, and so is an empty list for no list. -/
theorem orDefault_text (s : String) : (text s).orDefault (text "") = text s := by
  unfold orDefault
  split
  · rename_i h
    rw [String.isEmpty_iff.mp h]
  · rfl

theorem orDefault_list (items : List Value) : (list items).orDefault (list []) = list items := by
  cases items <;> rfl

theorem isTruthy_of_isEmpty {v : Value} (h : v.isEmpty = true) : v.isTruthy = false := by
  cases v with
  | null | text | list | object => simp [Value.isTruthy, h]
  | _ => cases h

/-- What counts as false but is not empty is a truth value or a number. -/
theorem eq_of_false {v : Value} (hfalse : v.isTruthy = false) (hgiven : v.isEmpty = false) :
    (∃ b, v = .bool b) ∨ (∃ i, v = .int i) ∨ ∃ x, v = .float x := by
  cases v with
  | bool b => exact .inl ⟨b, rfl⟩
  | int i => exact .inr (.inl ⟨i, rfl⟩)
  | float x => exact .inr (.inr ⟨x, rfl⟩)
  | _ =>
    rw [isTruthy, hgiven] at hfalse
    · cases hfalse
    all_goals nofun

theorem isTruthy_text (s : String) : (Value.text s).isTruthy = decide (s ≠ "") := by
  rw [Bool.eq_iff_iff]
  simp [Value.isTruthy, Value.isEmpty]

theorem orDefault_moved {v : Value} (h : v.isTruthy = false → v.isEmpty = true)
    (default : Value) : v.moved.orDefault default = default := by
  unfold Value.moved
  cases hv : v.isTruthy with
  | true => rfl
  | false => exact if_pos (h hv)

theorem isEmpty_text_of_not_isTruthy {s : String} (h : (Value.text s).isTruthy = false) :
    (Value.text s).isEmpty = true := by
  simpa [Value.isTruthy] using h

end Value

section Member

variable {F : Type} {member : F → String}

/-- The members that were made for fields have the fields' values. -/
theorem Object.get?_filterMap_member [DecidableEq F] (hmember : ∀ {f g}, member f = member g → f = g)
    (value : F → Option Value) (fields : List F) (f : F) :
    get? (fields.filterMap fun g => (value g).map fun v => (member g, v)) (member f) =
      if f ∈ fields then value f else none := by
  induction fields with
  | nil => rfl
  | cons g rest ih =>
    rw [List.filterMap_cons]
    by_cases hfg : f = g
    · subst hfg
      cases hv : value f with
      | some v => simp [get?_cons]
      | none => simp [ih, hv]
    · have hname : ¬member f = member g := fun h => hfg (hmember h)
      cases value g with
      | some v => simp [get?_cons, hname, ih, hfg]
      | none => simp [ih, hfg]

theorem Object.names_filterMap_member (value : F → Option Value) (fields : List F) :
    (names (fields.filterMap fun g => (value g).map fun v => (member g, v))).Sublist
      (fields.map member) := by
  induction fields with
  | nil => exact .slnil
  | cons g rest ih =>
    rw [List.filterMap_cons, List.map_cons]
    cases value g with
    | some v => exact ih.cons_cons _
    | none => exact ih.cons _

end Member

theorem Object.wellFormed_filterMap_member {F : Type} {member : F → String} {fields : List F}
    {value : F → Value} (hfields : (fields.map member).Nodup) (hvalue : ∀ f, (value f).WellFormed) :
    (Value.object (fields.filterMap fun f =>
      (value f).nonempty?.map fun v => (member f, v))).WellFormed := by
  rw [Value.wellFormed_object_iff]
  refine ⟨hfields.sublist (names_filterMap_member _ _), fun m hm => ?_⟩
  obtain ⟨f, -, hf⟩ := List.mem_filterMap.mp hm
  obtain ⟨v, hv, rfl⟩ := Option.map_eq_some_iff.mp hf
  exact Value.nonempty?_eq_some hv ▸ hvalue f

namespace Credential

theorem toObject_eq (c : Credential) : c.toObject =
    Field.all.filterMap fun f => (c.get f).nonempty?.map fun v => (f.member, v) := by
  simp only [toObject, Value.map_nonempty?]

theorem get?_toObject (c : Credential) (f : Field) :
    Object.get? c.toObject f.member = (c.get f).nonempty? := by
  rw [toObject_eq, Object.get?_filterMap_member Field.member_injective, if_pos (Field.mem_all f)]

/-- A credential is found again from its object, but for empty values. -/
theorem get_ofMembers_toObject (c : Credential) (f : Field) :
    (ofMembers c.toObject).get f = (c.get f).orDefault f.default := by
  rw [ofMembers, get_ofFields, get?_toObject, Value.getD_nonempty?]

/-- The members of an object are a credential if its subject is an object. -/
theorem ofValue_of_subject {o subject : Object} (h : (ofMembers o).subject = .object subject) :
    ofValue (.object o) = .ok (ofMembers o) := by
  unfold ofValue
  simp only [h]

theorem wellFormed_toObject {c : Credential} (h : (Value.credential c).WellFormed) :
    (Value.object c.toObject).WellFormed := by
  rw [toObject_eq]
  exact Object.wellFormed_filterMap_member (by decide) (Value.wellFormed_credential_iff.mp h)

end Credential

namespace Presentation

theorem wellFormed_plainCredential {v : Value} (h : v.WellFormed) : (plainCredential v).WellFormed := by
  cases v with
  | credential c => exact Credential.wellFormed_toObject h
  | _ => exact h

theorem wellFormed_of_mem_elements {v : Value} {items : List Value} (hv : v.WellFormed)
    (h : v.elements = .ok items) : ∀ item ∈ items, item.WellFormed := by
  unfold Value.elements at h
  split at h
  · obtain rfl := Except.ok.inj h
    exact Value.wellFormed_list_iff.mp hv
  · obtain rfl := Except.ok.inj h
    intro item hitem
    obtain ⟨m, -, rfl⟩ := List.mem_map.mp hitem
    exact Value.wellFormed_text m.1
  · obtain rfl := Except.ok.inj h
    intro item hitem
    obtain ⟨c, -, rfl⟩ := List.mem_map.mp hitem
    exact Value.wellFormed_text _
  · cases h

theorem elements_ne_nil {v : Value} {items : List Value} (hv : v.isEmpty = false)
    (h : v.elements = .ok items) : items ≠ [] := by
  rintro rfl
  unfold Value.elements at h
  split at h
  · obtain rfl := Except.ok.inj h
    cases hv
  · rw [List.map_eq_nil_iff.mp (Except.ok.inj h)] at hv
    cases hv
  · rename_i s
    have hs : s = "" := String.toList_eq_nil_iff.mp (List.map_eq_nil_iff.mp (Except.ok.inj h))
    subst hs
    cases hv
  · cases h

/-- The credentials of a presentation as they are written: a list of what they are as objects, unless
there are none. -/
def written (credentials : Value) : Except Value.Fault Value :=
  if credentials.isEmpty then .ok credentials
  else credentials.elements.map fun items => .list (items.map plainCredential)

theorem written_list (items : List Value) :
    written (.list items) = .ok (.list (items.map plainCredential)) := by
  cases items <;> rfl

theorem wellFormed_written {credentials v : Value} (hwell : credentials.WellFormed)
    (h : written credentials = .ok v) : v.WellFormed := by
  unfold written at h
  split at h
  · exact Except.ok.inj h ▸ hwell
  · cases hitems : credentials.elements with
    | error f =>
      rw [hitems] at h
      cases h
    | ok items =>
      rw [hitems] at h
      obtain rfl := Except.ok.inj h
      rw [Value.wellFormed_list_iff]
      intro v hv
      obtain ⟨item, hitem, rfl⟩ := List.mem_map.mp hv
      exact wellFormed_plainCredential (wellFormed_of_mem_elements hwell hitems item hitem)

/-- A presentation has an object exactly if its credentials can be written. -/
theorem toObject_eq_ok_iff {p : Presentation} {o : Object} :
    p.toObject = .ok o ↔ ∃ v, written p.credentials = .ok v ∧
      o = Field.all.filterMap fun f =>
        ((p.set .credentials v).get f).nonempty?.map fun w => (f.member, w) := by
  unfold toObject written
  simp only [Value.map_nonempty?, get_set]
  cases hempty : p.credentials.isEmpty with
  | true =>
    have hplain (f : Field) :
        (if f = .credentials then p.credentials else p.get f) = p.get f := by
      split
      · rename_i hf
        subst hf
        rfl
      · rfl
    simp only [if_true, hplain, Except.ok.injEq, exists_eq_left']
    exact Except.ok_eq_ok_iff
  | false =>
    cases hitems : p.credentials.elements with
    | error f => exact iff_of_false nofun fun ⟨v, hv, _⟩ => nomatch hv
    | ok items =>
      have hmore : (items.map plainCredential).isEmpty = false := by
        cases items with
        | nil => exact absurd rfl (elements_ne_nil hempty hitems)
        | cons v rest => rfl
      have hfield (f : Field) :
          (if f = .credentials then some (f.member, Value.list (items.map plainCredential))
            else if (p.get f).isEmpty = true then none else some (f.member, p.get f)) =
          if (if f = .credentials then Value.list (items.map plainCredential)
              else p.get f).isEmpty = true then none
            else some (f.member,
              if f = .credentials then Value.list (items.map plainCredential) else p.get f) := by
        by_cases hf : f = .credentials
        · simp only [hf, if_true, Value.isEmpty, hmore, Bool.false_eq_true, if_false]
        · simp only [hf, if_false]
      constructor
      · intro h
        refine ⟨_, rfl, (Except.ok.inj h).symm.trans ?_⟩
        simp only [hfield]
      · rintro ⟨v, hv, rfl⟩
        obtain rfl := Except.ok.inj hv
        refine congrArg Except.ok ?_
        simp only [hfield]

/-- The members of a presentation, but for its credentials, are its fields that are not empty. -/
theorem get?_toObject {p : Presentation} {o : Object} (h : p.toObject = .ok o) {f : Field}
    (hf : f ≠ .credentials) : Object.get? o f.member = (p.get f).nonempty? := by
  obtain ⟨v, -, rfl⟩ := toObject_eq_ok_iff.mp h
  rw [Object.get?_filterMap_member Field.member_injective, if_pos (Field.mem_all f), get_set,
    if_neg hf]

theorem wellFormed_toObject {p : Presentation} {o : Object} (hwell : ∀ f, (p.get f).WellFormed)
    (h : p.toObject = .ok o) : (Value.object o).WellFormed := by
  obtain ⟨v, hv, rfl⟩ := toObject_eq_ok_iff.mp h
  refine Object.wellFormed_filterMap_member (by decide) fun f => ?_
  rw [get_set]
  split
  · exact wellFormed_written (hwell .credentials) hv
  · exact hwell f

/-- A presentation whose credentials are objects and no credentials as such. -/
def plain (p : Presentation) (items : List Value) : Presentation :=
  p.set .credentials (.list (items.map plainCredential))

theorem get_plain (p : Presentation) (items : List Value) (f : Field) : (p.plain items).get f =
    if f = .credentials then .list (items.map plainCredential) else p.get f := get_set _ _ _ _

theorem toObject_eq {p : Presentation} {items : List Value} (h : p.credentials = .list items) :
    p.toObject = .ok (Field.all.filterMap fun f =>
      ((p.plain items).get f).nonempty?.map fun v => (f.member, v)) :=
  toObject_eq_ok_iff.mpr ⟨_, h ▸ written_list items, rfl⟩

section ToObject

variable {p : Presentation} {items : List Value} {o : Object} (h : p.credentials = .list items)
  (ho : p.toObject = .ok o)
include h ho

/-- A presentation is found again from its object, but for empty values, and each of its credentials is
an object if it was a credential. -/
theorem get_ofMembers_toObject (f : Field) :
    (ofMembers o).get f = ((p.plain items).get f).orDefault f.default := by
  rw [toObject_eq h] at ho
  obtain rfl := Except.ok.inj ho
  rw [ofMembers, get_ofFields, Object.get?_filterMap_member Field.member_injective,
    if_pos (Field.mem_all f), Value.getD_nonempty?]

theorem ofValue_toObject : ofValue (.object o) = .ok (ofMembers o) := by
  have hcredentials : (ofMembers o).credentials = .list (items.map plainCredential) := by
    refine (get_ofMembers_toObject h ho .credentials).trans ?_
    rw [get_plain, if_pos rfl]
    cases items <;> rfl
  unfold ofValue
  simp only [hcredentials]

end ToObject

end Presentation

namespace Claims

/-- A text in a claim of its own overrides the field, unless it is empty. -/
theorem overrideText_claim {claims : Claims} {name s : String}
    (h : Object.get? claims name = if (Value.text s).isTruthy then some (.text s) else none)
    (base : Value) : overrideText base (nonemptyText? claims name) = (Value.text s).orDefault base := by
  by_cases hs : s = ""
  · subst hs
    have hnone : nonemptyText? claims name = none := by
      rw [nonemptyText?, text?, Object.getD, h]
      rfl
    rw [hnone]
    rfl
  · have hsome : nonemptyText? claims name = some s :=
      nonemptyText?_eq_some_iff.mpr ⟨by rw [h, Value.isTruthy_text, if_pos (by simp [hs])], hs⟩
    rw [hsome]
    simp [overrideText, Value.orDefault, Value.isEmpty, hs]

end Claims

end Attest
