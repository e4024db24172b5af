import Attest.Credential

/-! Well-formed values: each object in them, at any depth, has each of its names once, as it is when
its members were set one after the other. -/

namespace Attest

namespace Value

mutual

/-- Each object in a value has each of its names once. -/
def isWellFormed : Value → Bool
  | null | bool _ | int _ | float _ | text _ | time _ => true
  | list items => isWellFormedItems items
  | object members => decide (Object.names members).Nodup && isWellFormedMembers members
  | credential ⟨context, id, type, issuer, issuanceDate, expirationDate, status, subject, schema,
      refreshService, termsOfUse, evidence, proof⟩ =>
    isWellFormed context && isWellFormed id && isWellFormed type && isWellFormed issuer &&
      isWellFormed issuanceDate && isWellFormed expirationDate && isWellFormed status &&
      isWellFormed subject && isWellFormed schema && isWellFormed refreshService &&
      isWellFormed termsOfUse && isWellFormed evidence && isWellFormed proof

def isWellFormedItems : List Value → Bool
  | [] => true
  | v :: rest => isWellFormed v && isWellFormedItems rest

def isWellFormedMembers : List (String × Value) → Bool
  | [] => true
  | (_, v) :: rest => isWellFormed v && isWellFormedMembers rest

end

/-- Each object in a value has each of its names once. -/
def WellFormed (v : Value) : Prop := v.isWellFormed = true

instance (v : Value) : Decidable v.WellFormed := inferInstanceAs (Decidable (_ = _))

theorem isWellFormedItems_iff {items : List Value} :
    isWellFormedItems items = true ↔ ∀ v ∈ items, v.WellFormed := by
  induction items with
  | nil => simp [isWellFormedItems]
  | cons v rest ih => simp [isWellFormedItems, ih, WellFormed]

theorem isWellFormedMembers_iff {members : List (String × Value)} :
    isWellFormedMembers members = true ↔ ∀ m ∈ members, m.2.WellFormed := by
  induction members with
  | nil => simp [isWellFormedMembers]
  | cons m rest ih =>
    obtain ⟨name, v⟩ := m
    simp [isWellFormedMembers, ih, WellFormed]

@[simp] theorem wellFormed_text (s : String) : (text s).WellFormed := by
  simp [WellFormed, isWellFormed]

@[simp] theorem wellFormed_int (i : Int) : (int i).WellFormed := by
  simp [WellFormed, isWellFormed]

@[simp] theorem wellFormed_list_iff {items : List Value} :
    (list items).WellFormed ↔ ∀ v ∈ items, v.WellFormed := by
  rw [WellFormed, isWellFormed, isWellFormedItems_iff]

@[simp] theorem wellFormed_object_iff {members : Object} :
    (object members).WellFormed ↔
      (Object.names members).Nodup ∧ ∀ m ∈ members, m.2.WellFormed := by
  rw [WellFormed, isWellFormed, Bool.and_eq_true, decide_eq_true_eq, isWellFormedMembers_iff]

theorem wellFormed_credential_iff {c : Credential} :
    (credential c).WellFormed ↔ ∀ f, (c.get f).WellFormed := by
  obtain ⟨context, id, type, issuer, issuanceDate, expirationDate, status, subject, schema,
    refreshService, termsOfUse, evidence, proof⟩ := c
  simp only [WellFormed, isWellFormed, Bool.and_eq_true, and_assoc]
  constructor
  · rintro ⟨_, _, _, _, _, _, _, _, _, _, _, _, _⟩ f
    cases f <;> assumption
  · intro h
    exact ⟨h .context, h .id, h .type, h .issuer, h .issuanceDate, h .expirationDate, h .status,
      h .subject, h .schema, h .refreshService, h .termsOfUse, h .evidence, h .proof⟩

end Value

namespace Object

theorem foldl_set {o members : Object} (h : (names (o ++ members)).Nodup) :
    members.foldl (fun o m => set o m.1 m.2) o = o ++ members := by
  induction members generalizing o with
  | nil => simp
  | cons m rest ih =>
    obtain ⟨name, v⟩ := m
    have hnew : name ∉ names o := by
      simp only [names, List.map_append, List.map_cons] at h
      have := List.nodup_append.mp h
      exact fun hmem => this.2.2 _ hmem _ (by simp) rfl
    rw [List.foldl_cons, set_of_not_mem v hnew, ih (by simpa using h), List.append_assoc,
      List.singleton_append]

/-- Members with names of their own, set one after the other, stand in this order. -/
theorem ofMembers_of_nodup {members : Object} (h : (names members).Nodup) :
    ofMembers members = members := by
  rw [ofMembers, foldl_set (by simpa using h), List.nil_append]

theorem names_set (o : Object) (name : String) (v : Value) :
    names (set o name v) = if name ∈ names o then names o else names o ++ [name] := by
  induction o with
  | nil => rfl
  | cons m rest ih =>
    obtain ⟨n, w⟩ := m
    by_cases hn : n = name
    · subst hn
      simp [set, names]
    · have hne : ¬name = n := fun e => hn e.symm
      simp only [set, beq_iff_eq, hn, if_false]
      simp only [names, List.map_cons, List.mem_cons, hne, false_or] at ih ⊢
      rw [ih]
      by_cases hmem : name ∈ rest.map Prod.fst <;> simp [hmem]

theorem mem_set {o : Object} {name : String} {v : Value} {m : String × Value}
    (h : m ∈ set o name v) : m = (name, v) ∨ m ∈ o := by
  induction o with
  | nil => exact .inl (by simpa [set] using h)
  | cons first rest ih =>
    obtain ⟨n, w⟩ := first
    by_cases hn : n = name
    · subst hn
      simp only [set, beq_self_eq_true, if_true, List.mem_cons] at h
      exact h.imp_right fun h => List.mem_cons_of_mem _ h
    · simp only [set, beq_iff_eq, hn, if_false, List.mem_cons] at h
      rcases h with h | h
      · exact .inr (h ▸ List.mem_cons_self)
      · exact (ih h).imp_right fun h => List.mem_cons_of_mem _ h

theorem wellFormed_set {o : Object} {v : Value} (ho : (Value.object o).WellFormed)
    (hv : v.WellFormed) (name : String) : (Value.object (set o name v)).WellFormed := by
  rw [Value.wellFormed_object_iff] at ho ⊢
  refine ⟨?_, fun m hm => ?_⟩
  · rw [names_set]
    split
    · exact ho.1
    · rename_i hnew
      exact List.nodup_append.mpr ⟨ho.1, by simp, by
        rintro a ha b hb rfl
        exact hnew (List.mem_singleton.mp hb ▸ ha)⟩
  · rcases mem_set hm with rfl | hmem
    · exact hv
    · exact ho.2 m hmem

theorem wellFormed_erase {o : Object} (ho : (Value.object o).WellFormed) (name : String) :
    (Value.object (erase o name)).WellFormed := by
  rw [Value.wellFormed_object_iff] at ho ⊢
  refine ⟨?_, fun m hm => ho.2 m (List.mem_filter.mp hm).1⟩
  exact ho.1.sublist (List.Sublist.map _ List.filter_sublist)

end Object

end Attest
