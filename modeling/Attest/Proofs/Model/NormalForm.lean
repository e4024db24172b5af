import Attest.Proofs.Claims.Fields

/-! The normal form of credentials and presentations. It is what is read again of their objects:
every field that is empty has the value of a field that is not given, and every credential of a
presentation is an object. The other way round, a JSON object from which one of them is read is
written again without its unknown and its empty members. -/

namespace Attest

namespace Value

mutual

/-- A value of JSON: there is no point in time and no credential in it, and each object in it has
each of its names once. -/
def isJson : Value → Bool
  | null | bool _ | int _ | float _ | text _ => true
  | list items => isJsonItems items
  | object members => decide (Object.names members).Nodup && isJsonMembers members
  | time _ | credential _ => false

def isJsonItems : List Value → Bool
  | [] => true
  | v :: rest => isJson v && isJsonItems rest

def isJsonMembers : List (String × Value) → Bool
  | [] => true
  | (_, v) :: rest => isJson v && isJsonMembers rest

end

theorem isJsonItems_iff {items : List Value} :
    isJsonItems items = true ↔ ∀ v ∈ items, v.isJson = true := by
  induction items with
  | nil => simp [isJsonItems]
  | cons v rest ih => simp [isJsonItems, ih]

theorem isJsonMembers_iff {members : List (String × Value)} :
    isJsonMembers members = true ↔ ∀ m ∈ members, m.2.isJson = true := by
  induction members with
  | nil => simp [isJsonMembers]
  | cons m rest ih =>
    obtain ⟨name, v⟩ := m
    simp [isJsonMembers, ih]

theorem isJson_list_iff {items : List Value} :
    (list items).isJson = true ↔ ∀ v ∈ items, v.isJson = true := by
  rw [isJson, isJsonItems_iff]

theorem isJson_object_iff {members : Object} : (object members).isJson = true ↔
    (Object.names members).Nodup ∧ ∀ m ∈ members, m.2.isJson = true := by
  rw [isJson, Bool.and_eq_true, decide_eq_true_eq, isJsonMembers_iff]

theorem nonempty?_orDefault {default : Value} (h : default.isEmpty = true) (v : Value) :
    (v.orDefault default).nonempty? = v.nonempty? := by
  unfold orDefault
  split
  · rename_i hv
    rw [nonempty?_eq_none_iff.mpr h, nonempty?_eq_none_iff.mpr hv]
  · rfl

theorem nonempty?_getD {default : Value} (h : default.isEmpty = true) (v : Option Value) :
    (v.getD default).nonempty? = v.bind nonempty? := by
  cases v with
  | none => exact nonempty?_eq_none_iff.mpr h
  | some w => rfl

end Value

namespace Object

/-- The members that have one of some names and are not empty. -/
def kept (known : List String) (o : Object) : Object :=
  o.filter fun m => known.contains m.1 && !m.2.isEmpty

theorem mem_iff_get? {o : Object} (h : (names o).Nodup) {name : String} {v : Value} :
    (name, v) ∈ o ↔ get? o name = some v := by
  induction o with
  | nil => simp
  | cons m rest ih =>
    obtain ⟨n, w⟩ := m
    obtain ⟨hnew, hrest⟩ := List.nodup_cons.mp h
    rw [List.mem_cons, get?_cons, Prod.mk.injEq]
    by_cases hname : name = n
    · subst hname
      have habsent : (name, v) ∉ rest := fun hmem => hnew (List.mem_map.mpr ⟨_, hmem, rfl⟩)
      simp [habsent, eq_comm]
    · simp [hname, ih hrest]

theorem nodup_of_names {o : Object} (h : (names o).Nodup) : o.Nodup :=
  (List.pairwise_map.mp h).imp fun hne heq => hne (congrArg Prod.fst heq)

section Member

variable {F : Type} {member : F → String} {fields : List F} {value : F → Value}

theorem filterMap_member_eq_nil_iff :
    (fields.filterMap fun f => (value f).nonempty?.map fun v => (member f, v)) = [] ↔
      (fields.all fun f => (value f).isEmpty) = true := by
  simp [Value.nonempty?_eq_none_iff]

/-- Members that are written for fields are those of an object from which the fields were read, but
for the unknown and the empty ones. -/
theorem perm_filterMap_member {o : Object} (hmember : (fields.map member).Nodup)
    (ho : (names o).Nodup)
    (hread : ∀ f, (value f).nonempty? = (get? o (member f)).bind Value.nonempty?) :
    (fields.filterMap fun f => (value f).nonempty?.map fun v => (member f, v)).Perm
      (o.kept (fields.map member)) := by
  have hwritten : (names (fields.filterMap fun f => (value f).nonempty?.map fun v =>
      (member f, v))).Nodup := (names_filterMap_member _ fields).nodup hmember
  refine (List.perm_ext_iff_of_nodup (nodup_of_names hwritten)
    ((nodup_of_names ho).filter _)).mpr ?_
  rintro ⟨name, v⟩
  simp only [List.mem_filterMap, Option.map_eq_some_iff, Prod.mk.injEq, hread,
    Option.bind_eq_some_iff, Value.nonempty?_eq_some_iff, List.mem_filter, Bool.and_eq_true,
    List.contains_iff_mem, List.mem_map, Bool.not_eq_true', mem_iff_get? ho]
  constructor
  · rintro ⟨f, hf, _, ⟨_, hget, rfl, hv⟩, rfl, rfl⟩
    exact ⟨hget, ⟨f, hf, rfl⟩, hv⟩
  · rintro ⟨hget, ⟨f, hf, rfl⟩, hv⟩
    exact ⟨f, hf, v, ⟨v, hget, rfl, hv⟩, rfl, rfl⟩

end Member

end Object

namespace Credential

/-- A credential with the value of a field that is not given in the place of every empty value. -/
def normal (c : Credential) : Credential := ofFields fun f => (c.get f).orDefault f.default

theorem ofMembers_toObject (c : Credential) : ofMembers c.toObject = c.normal := by
  rw [← ofFields_get (ofMembers c.toObject)]
  exact congrArg ofFields (funext c.get_ofMembers_toObject)

/-- The object of a credential is read again as its normal form. -/
theorem ofValue_toObject {c : Credential}
    (h : c.subject = .null ∨ ∃ o, c.subject = .object o) :
    ofValue (.object c.toObject) = .ok c.normal := by
  have hsubject : ∃ subject, c.normal.subject = .object subject := by
    show ∃ subject, c.subject.orDefault (.object []) = .object subject
    rcases h with hnull | ⟨o, ho⟩
    · exact ⟨[], hnull ▸ rfl⟩
    · rw [ho]
      cases o with
      | nil => exact ⟨[], rfl⟩
      | cons m rest => exact ⟨m :: rest, rfl⟩
  obtain ⟨subject, hsubject⟩ := hsubject
  rw [← ofMembers_toObject] at hsubject ⊢
  exact ofValue_of_subject hsubject

theorem toObject_normal (c : Credential) : c.normal.toObject = c.toObject := by
  simp only [toObject_eq, normal, get_ofFields, Value.nonempty?_orDefault (Field.isEmpty_default _)]

theorem toObject_eq_nil_iff (c : Credential) : c.toObject = [] ↔ c.isEmpty = true := by
  rw [toObject_eq, Object.filterMap_member_eq_nil_iff]
  rfl

/-- A field that is read is that of the object, unless this is empty. -/
theorem nonempty?_get_of_ofValue {o : Object} {c : Credential} (h : ofValue (.object o) = .ok c)
    (f : Field) : (c.get f).nonempty? = (Object.get? o f.member).bind Value.nonempty? := by
  have hmembers (f : Field) : ((ofMembers o).get f).nonempty? =
      (Object.get? o f.member).bind Value.nonempty? := by
    rw [ofMembers, get_ofFields, Value.nonempty?_getD f.isEmpty_default]
  unfold ofValue at h
  dsimp only at h
  split at h
  · obtain rfl := Except.ok.inj h
    exact hmembers f
  · rename_i hnull
    obtain rfl := Except.ok.inj h
    rw [get_set, ← hmembers f]
    split
    · rename_i hf
      subst hf
      rw [show (ofMembers o).get .subject = .null from hnull]
      rfl
    · rfl
  · cases h

end Credential

namespace Presentation

/-- A list with each credential in it as an object, and any other value as it is. -/
def plainList : Value → Value
  | .list items => .list (items.map plainCredential)
  | v => v

/-- A presentation with each of its credentials as an object. -/
def listed (p : Presentation) : Presentation := p.set .credentials (plainList p.credentials)

/-- A presentation with each of its credentials as an object, and the value of a field that is not
given in the place of every empty value. -/
def normal (p : Presentation) : Presentation :=
  ofFields fun f => (p.listed.get f).orDefault f.default

theorem get_listed (p : Presentation) (f : Field) :
    p.listed.get f = if f = .credentials then plainList p.credentials else p.get f :=
  get_set _ _ _ _

theorem isEmpty_plainList (v : Value) : (plainList v).isEmpty = v.isEmpty := by
  cases v with
  | list items => cases items <;> rfl
  | _ => rfl

theorem plainCredential_plainCredential (v : Value) :
    plainCredential (plainCredential v) = plainCredential v := by
  cases v <;> rfl

theorem plainList_plainList (v : Value) : plainList (plainList v) = plainList v := by
  cases v with
  | list items => simp [plainList, plainCredential_plainCredential]
  | _ => rfl

/-- What is a value of JSON has no credential in it that is not an object. -/
theorem plainList_of_isJson {v : Value} (h : v.isJson = true) : plainList v = v := by
  cases v with
  | list items =>
    refine congrArg Value.list ((List.map_congr_left fun v hv => ?_).trans items.map_id)
    have hitem := Value.isJson_list_iff.mp h v hv
    cases v with
    | credential c => simp [Value.isJson] at hitem
    | _ => rfl
  | _ => rfl

/-- The credentials of a presentation are null or a list. -/
def Lists (credentials : Value) : Prop :=
  credentials = .null ∨ ∃ items, credentials = .list items

theorem written_of_lists {credentials : Value} (h : Lists credentials) :
    written credentials = .ok (plainList credentials) := by
  rcases h with rfl | ⟨items, rfl⟩
  · rfl
  · exact written_list items

theorem toObject_of_lists {p : Presentation} (h : Lists p.credentials) :
    p.toObject = .ok (Field.all.filterMap fun f =>
      (p.listed.get f).nonempty?.map fun v => (f.member, v)) :=
  toObject_eq_ok_iff.mpr ⟨_, written_of_lists h, rfl⟩

theorem exists_credentials_normal {p : Presentation} (h : Lists p.credentials) :
    ∃ items, p.normal.credentials = .list items := by
  show ∃ items, (plainList p.credentials).orDefault (.list []) = .list items
  rcases h with hnull | ⟨items, hitems⟩
  · exact ⟨[], hnull ▸ rfl⟩
  · rw [hitems]
    exact ⟨_, Value.orDefault_list _⟩

theorem ofValue_toObject_of_lists {p : Presentation} {o : Object} (h : Lists p.credentials)
    (ho : p.toObject = .ok o) : ofValue (.object o) = .ok p.normal := by
  have hmembers : ofMembers o = p.normal := by
    rw [toObject_of_lists h] at ho
    obtain rfl := Except.ok.inj ho
    unfold ofMembers normal
    congr 1
    funext f
    rw [Object.get?_filterMap_member Field.member_injective, if_pos (Field.mem_all f),
      Value.getD_nonempty?]
  obtain ⟨items, hitems⟩ := exists_credentials_normal h
  unfold ofValue
  simp only [hmembers, hitems]

theorem nonempty?_get_listed_normal (p : Presentation) (f : Field) :
    (p.normal.listed.get f).nonempty? = (p.listed.get f).nonempty? := by
  have hplain : plainList (p.normal.get .credentials) = p.normal.get .credentials := by
    rw [normal, get_ofFields, get_listed, if_pos rfl]
    unfold Value.orDefault
    split
    · rfl
    · exact plainList_plainList _
  have hfield : p.normal.listed.get f = p.normal.get f := by
    rw [get_listed]
    split
    · rename_i hf
      subst hf
      exact hplain
    · rfl
  rw [hfield, normal, get_ofFields, Value.nonempty?_orDefault f.isEmpty_default]

theorem toObject_normal {p : Presentation} {o : Object} (h : Lists p.credentials)
    (ho : p.toObject = .ok o) : p.normal.toObject = .ok o := by
  rw [toObject_of_lists (.inr (exists_credentials_normal h)), ← ho, toObject_of_lists h]
  simp only [nonempty?_get_listed_normal]

theorem toObject_eq_nil_iff {p : Presentation} {o : Object} (h : Lists p.credentials)
    (ho : p.toObject = .ok o) : o = [] ↔ p.isEmpty = true := by
  rw [toObject_of_lists h] at ho
  obtain rfl := Except.ok.inj ho
  rw [Object.filterMap_member_eq_nil_iff]
  have hfield (f : Field) : (p.listed.get f).isEmpty = (p.get f).isEmpty := by
    rw [get_listed]
    split
    · rename_i hf
      subst hf
      exact isEmpty_plainList _
    · rfl
  simp only [hfield]
  rfl

/-- What stands for the credentials of a presentation as it is read: a list as it is, nothing for
null, and a list of one for any other value. -/
def asList : Value → Value
  | .list items => .list items
  | .null => .null
  | v => .list [v]

/-- A member that stands for the credentials of a presentation as it is read. -/
def wrapMember (m : String × Value) : String × Value :=
  if m.1 = Field.credentials.member then (m.1, asList m.2) else m

/-- An object from which a presentation is read, with a list for its credentials. -/
def wrap (o : Object) : Object := o.map wrapMember

theorem names_wrap (o : Object) : Object.names (wrap o) = Object.names o := by
  have hname (m : String × Value) : (wrapMember m).1 = m.1 := by
    unfold wrapMember
    split <;> rfl
  simp [wrap, Object.names, hname]

theorem get?_wrap (o : Object) (name : String) : Object.get? (wrap o) name =
    (Object.get? o name).map fun v => if name = Field.credentials.member then asList v else v := by
  induction o with
  | nil => rfl
  | cons m rest ih =>
    obtain ⟨n, w⟩ := m
    have hcons : wrap ((n, w) :: rest) =
        (n, if n = Field.credentials.member then asList w else w) :: wrap rest := by
      simp only [wrap, List.map_cons, wrapMember]
      split <;> rfl
    rw [hcons, Object.get?_cons, Object.get?_cons, ih]
    split
    · rename_i hname
      rw [hname]
      rfl
    · rfl

theorem set_get (p : Presentation) (f : Field) : p.set f (p.get f) = p := by
  have hfields : (fun g => if g = f then p.get f else p.get g) = p.get := by
    funext g
    split
    · rename_i hg
      rw [hg]
    · rfl
  rw [set, hfields, ofFields_get]

theorem eq_of_ofValue {o : Object} {p : Presentation} (h : ofValue (.object o) = .ok p) :
    p = (ofMembers o).set .credentials
      ((asList (ofMembers o).credentials).orDefault (.list [])) := by
  unfold ofValue at h
  dsimp only at h
  split at h
  · rename_i items hitems
    rw [hitems, asList, Value.orDefault_list, ← hitems]
    exact (Except.ok.inj h).symm.trans (set_get _ .credentials).symm
  · rename_i hnull
    rw [hnull]
    exact (Except.ok.inj h).symm
  · rename_i v hlist hnull
    have hone : asList (ofMembers o).credentials = .list [(ofMembers o).credentials] := by
      unfold asList
      split
      · rename_i items hitems
        exact absurd hitems (hlist items)
      · rename_i hn
        exact absurd hn hnull
      · rfl
    rw [hone, Value.orDefault_list]
    exact (Except.ok.inj h).symm

theorem isJson_asList {v : Value} (h : v.isJson = true) : (asList v).isJson = true := by
  have hone : (Value.list [v]).isJson = true :=
    Value.isJson_list_iff.mpr fun w hw => List.mem_singleton.mp hw ▸ h
  cases v with
  | list | null => exact h
  | _ => exact hone

theorem isJson_credentials_of_ofValue {o : Object} {p : Presentation}
    (ho : (Value.object o).isJson = true) (h : ofValue (.object o) = .ok p) :
    Lists p.credentials ∧ p.credentials.isJson = true := by
  refine ⟨.inr (credentials_of_ofValue h), ?_⟩
  obtain ⟨hnames, hmembers⟩ := Value.isJson_object_iff.mp ho
  have hread : (ofMembers o).credentials.isJson = true := by
    show ((Object.get? o Field.credentials.member).getD (.list [])).isJson = true
    cases hget : Object.get? o Field.credentials.member with
    | none => decide
    | some v => exact hmembers _ ((Object.mem_iff_get? hnames).mpr hget)
  rw [eq_of_ofValue h]
  show ((asList (ofMembers o).credentials).orDefault (.list [])).isJson = true
  unfold Value.orDefault
  split
  · decide
  · exact isJson_asList hread

/-- A field that is read is that of the object, unless this is empty, and the credentials are a
list. -/
theorem nonempty?_get_of_ofValue {o : Object} {p : Presentation} (h : ofValue (.object o) = .ok p)
    (f : Field) : (p.get f).nonempty? = (Object.get? (wrap o) f.member).bind Value.nonempty? := by
  rw [eq_of_ofValue h, get_set, get?_wrap]
  by_cases hf : f = .credentials
  · subst hf
    rw [if_pos rfl, Value.nonempty?_orDefault rfl]
    show (asList ((Object.get? o Field.credentials.member).getD (.list []))).nonempty? = _
    cases Object.get? o Field.credentials.member with
    | none => rfl
    | some v => rfl
  · have hname : f.member ≠ Field.credentials.member :=
      fun hname => hf (Field.member_injective hname)
    rw [if_neg hf, ofMembers, get_ofFields, Value.nonempty?_getD f.isEmpty_default]
    simp only [if_neg hname, Option.map_id']

theorem listed_of_isJson {p : Presentation} (h : p.credentials.isJson = true) : p.listed = p := by
  rw [listed, plainList_of_isJson h]
  exact set_get p .credentials

end Presentation

/-- The object of a credential or presentation is read again, as its normal form, which has the same
object; and this is empty exactly if nothing is given. A JSON object from which a credential or
presentation is read is its object, but for unknown and empty members, and for a credential of a
presentation that does not stand in a list. -/
theorem normalForm_of_objects :
    (∀ c : Credential, (c.subject = .null ∨ ∃ o, c.subject = .object o) →
      Credential.ofValue (.object c.toObject) = .ok c.normal ∧
        c.normal.toObject = c.toObject ∧ (c.toObject = [] ↔ c.isEmpty = true)) ∧
    (∀ p : Presentation, (p.credentials = .null ∨ ∃ items, p.credentials = .list items) →
      ∃ o, p.toObject = .ok o ∧ Presentation.ofValue (.object o) = .ok p.normal ∧
        p.normal.toObject = .ok o ∧ (o = [] ↔ p.isEmpty = true)) ∧
    (∀ o c, (Value.object o).isJson = true → Credential.ofValue (.object o) = .ok c →
      c.toObject.Perm (Object.kept (Credential.Field.all.map Credential.Field.member) o)) ∧
    (∀ o p, (Value.object o).isJson = true → Presentation.ofValue (.object o) = .ok p →
      ∃ o', p.toObject = .ok o' ∧ o'.Perm (Object.kept
        (Presentation.Field.all.map Presentation.Field.member) (Presentation.wrap o))) := by
  refine ⟨fun c hsubject => ?_, fun p hlists => ?_, fun o c ho hread => ?_, fun o p ho hread => ?_⟩
  · exact ⟨Credential.ofValue_toObject hsubject, c.toObject_normal, c.toObject_eq_nil_iff⟩
  · have htoObject := Presentation.toObject_of_lists hlists
    exact ⟨_, htoObject, Presentation.ofValue_toObject_of_lists hlists htoObject,
      Presentation.toObject_normal hlists htoObject,
      Presentation.toObject_eq_nil_iff hlists htoObject⟩
  · have hmembers : (Credential.Field.all.map Credential.Field.member).Nodup := by decide
    rw [Credential.toObject_eq]
    exact Object.perm_filterMap_member hmembers (Value.isJson_object_iff.mp ho).1
      (Credential.nonempty?_get_of_ofValue hread)
  · have hmembers : (Presentation.Field.all.map Presentation.Field.member).Nodup := by decide
    obtain ⟨hlists, hjson⟩ := Presentation.isJson_credentials_of_ofValue ho hread
    refine ⟨_, Presentation.toObject_of_lists hlists, ?_⟩
    rw [Presentation.listed_of_isJson hjson]
    refine Object.perm_filterMap_member hmembers ?_ (Presentation.nonempty?_get_of_ofValue hread)
    rw [Presentation.names_wrap]
    exact (Value.isJson_object_iff.mp ho).1

/-- A credential with an empty context and without a subject. -/
def bareCredential : Credential :=
  { Credential.empty with id := .text "c", context := .list [], subject := .null }

/-- A presentation of this credential and of null. -/
def barePresentation : Presentation :=
  { Presentation.empty with credentials := .list [.credential bareCredential, .null] }

/-- An object with an empty text for its credentials, an unknown member and an empty one. -/
def looseObject : Object :=
  [("verifiableCredential", .text ""), ("x", .int 1), ("id", .text ""), ("type", .int 0)]

/-- The credential loses its empty context and becomes an object in the presentation; of the
object the empty text is written in a list, and neither the unknown nor the empty member. -/
theorem normalForm_of_bare :
    (bareCredential.toObject = [("id", .text "c")] ∧
      Credential.ofValue (.object bareCredential.toObject) =
        .ok { Credential.empty with id := .text "c" }) ∧
    (∃ o, barePresentation.toObject = .ok o ∧
      Presentation.ofValue (.object o) = .ok { Presentation.empty with
        credentials := .list [.object [("id", .text "c")], .null] }) ∧
    ∃ p o, Presentation.ofValue (.object looseObject) = .ok p ∧ p.toObject = .ok o ∧
      o.Perm [("verifiableCredential", .list [.text ""]), ("type", .int 0)] := by
  obtain ⟨hcredential, hpresentation, -, hread⟩ := normalForm_of_objects
  refine ⟨⟨rfl, (hcredential bareCredential (.inl rfl)).1⟩, ?_, ?_⟩
  · obtain ⟨o, ho, hvalue, -⟩ := hpresentation barePresentation (.inr ⟨_, rfl⟩)
    exact ⟨o, ho, hvalue⟩
  · obtain ⟨o, ho, hperm⟩ := hread looseObject _ (by decide) rfl
    exact ⟨_, o, rfl, ho, hperm⟩

end Attest
