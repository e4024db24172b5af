import Attest.Proofs.Claims.Decoding

/-! What the other claims do to the credential that a claim set holds. Five of them count, each for one
field, and only with a value of the type that it should have. So a value of another type is as good as
none, all further claims are of no account, and claims that count change their fields independently of
each other. -/

namespace Attest

namespace Object

theorem set_set (o : Object) (name : String) (v w : Value) :
    set (set o name v) name w = set o name w := by
  induction o with
  | nil => simp [set]
  | cons m rest ih =>
    obtain ⟨n, x⟩ := m
    by_cases hn : n = name
    · simp [set, hn]
    · simp [set, hn, ih]

theorem get?_erase (o : Object) (name other : String) :
    get? (erase o name) other = if other = name then none else get? o other := by
  split
  · rename_i h
    rw [h, get?_erase_self]
  · rename_i h
    exact get?_erase_of_ne h

theorem get?_foldl_erase (o : Object) (names : List String) (name : String) :
    get? (names.foldl erase o) name = if name ∈ names then none else get? o name := by
  induction names generalizing o with
  | nil => simp
  | cons n rest ih =>
    rw [List.foldl_cons, ih, get?_erase]
    by_cases hn : name = n <;> by_cases hrest : name ∈ rest <;> simp [hn, hrest]

end Object

namespace Claims

/-- The claims that give a credential a text. -/
def overlayNames : List String := ["jti", "iss", "sub"]

/-- The claims that give a credential a date. -/
def overlayDates : List String := ["iat", "exp"]

/-- The claims of which a credential is made. -/
def credentialNames : List String := "vc" :: (overlayNames ++ overlayDates)

/-- A claim with this value changes the credential of its claim set. -/
inductive Counts : String → Value → Prop
  | name {name s : String} (hname : name ∈ overlayNames) (hs : s ≠ "") : Counts name (.text s)
  | date {name : String} {v : Value} {n : Number} (hname : name ∈ overlayDates)
    (hn : v.number? = some n) (hrange : n.isInCalendar = true) : Counts name v

/-- The change of a credential by a claim that counts. -/
inductive Overrides (c : Credential) : String → Value → Credential → Prop
  | id {s : String} : Overrides c "jti" (.text s) (c.set .id (.text s))
  | issuer {s : String} : Overrides c "iss" (.text s) (c.set .issuer (.text s))
  | subject {o : Object} {s : String} (ho : c.subject = .object o) :
    Overrides c "sub" (.text s) (c.set .subject (.object (Object.set o "id" (.text s))))
  | issuanceDate {v : Value} {n : Number} {t : DateTime} (hn : v.number? = some n)
    (ht : DateTime.ofNumber n = .ok t) :
    Overrides c "iat" v (c.set .issuanceDate (.text t.universalText))
  | expirationDate {v : Value} {n : Number} {t : DateTime} (hn : v.number? = some n)
    (ht : DateTime.ofNumber n = .ok t) :
    Overrides c "exp" v (c.set .expirationDate (.text t.universalText))

section Footprint

variable {claims claims' : Claims} {name : String}

theorem nonemptyText?_congr (h : Object.get? claims' name = Object.get? claims name) :
    nonemptyText? claims' name = nonemptyText? claims name := by
  unfold nonemptyText? text? Object.getD
  rw [h]

theorem time?_congr (h : Object.get? claims' name = Object.get? claims name) :
    time? claims' name = time? claims name := by
  unfold time? Object.getD
  rw [h]

/-- A claim set is read by what is asked of it: the object that is a credential, three names and two
dates. -/
theorem toCredential_congr (hvc : Object.get? claims' "vc" = Object.get? claims "vc")
    (hname : ∀ name ∈ overlayNames, nonemptyText? claims' name = nonemptyText? claims name)
    (hdate : ∀ name ∈ overlayDates, time? claims' name = time? claims name) :
    toCredential claims' = toCredential claims := by
  have hoverride (c : Credential) : overrideCredential claims' c = overrideCredential claims c := by
    unfold overrideCredential
    rw [hname "jti" (by decide), hname "iss" (by decide), hname "sub" (by decide),
      hdate "iat" (by decide), hdate "exp" (by decide)]
  unfold toCredential
  rw [hvc]
  simp only [hoverride]

theorem toCredential_of_agree
    (h : ∀ name ∈ credentialNames, Object.get? claims' name = Object.get? claims name) :
    toCredential claims' = toCredential claims := by
  apply toCredential_congr
  · exact h "vc" List.mem_cons_self
  · intro name hname
    apply nonemptyText?_congr
    exact h name (List.mem_cons_of_mem _ (List.mem_append_left _ hname))
  · intro name hname
    apply time?_congr
    exact h name (List.mem_cons_of_mem _ (List.mem_append_right _ hname))

theorem nonemptyText?_of_not_counts (hname : name ∈ overlayNames)
    (h : ∀ v, Object.get? claims name = some v → ¬Counts name v) :
    nonemptyText? claims name = none := by
  cases hs : nonemptyText? claims name with
  | none => rfl
  | some s =>
    obtain ⟨hv, hs⟩ := nonemptyText?_eq_some_iff.mp hs
    exact absurd (.name hname hs) (h _ hv)

theorem get?_of_number? {n : Number} (h : (Object.getD claims name).number? = some n) :
    ∃ v, Object.get? claims name = some v ∧ v.number? = some n := by
  unfold Object.getD at h
  cases hv : Object.get? claims name with
  | none =>
    rw [hv] at h
    cases h
  | some v =>
    rw [hv] at h
    exact ⟨v, rfl, h⟩

theorem time?_of_not_counts (hname : name ∈ overlayDates)
    (h : ∀ v, Object.get? claims name = some v → ¬Counts name v) : time? claims name = none := by
  cases ht : time? claims name with
  | none => rfl
  | some t =>
    obtain ⟨n, hn, hrange⟩ := isSome_time?_iff.mp (Option.isSome_of_eq_some ht)
    obtain ⟨v, hv, hn⟩ := get?_of_number? hn
    exact absurd (.date hname hn hrange) (h v hv)

theorem toCredential_erase {names : List String} (hvc : "vc" ∉ names)
    (h : ∀ name ∈ names, ∀ v, Object.get? claims name = some v → ¬Counts name v) :
    toCredential (names.foldl Object.erase claims) = toCredential claims := by
  have hget (name : String) := Object.get?_foldl_erase claims names name
  have hkept {name : String} (hname : name ∉ names) :
      Object.get? (names.foldl Object.erase claims) name = Object.get? claims name :=
    (hget name).trans (if_neg hname)
  have hgone {name : String} (hname : name ∈ names) :
      ∀ v, Object.get? (names.foldl Object.erase claims) name = some v → ¬Counts name v := by
    intro v hv
    cases ((hget name).trans (if_pos hname)).symm.trans hv
  apply toCredential_congr (hkept hvc)
  · intro name hname
    by_cases hmem : name ∈ names
    · rw [nonemptyText?_of_not_counts hname (hgone hmem),
        nonemptyText?_of_not_counts hname (h name hmem)]
    · exact nonemptyText?_congr (hkept hmem)
  · intro name hname
    by_cases hmem : name ∈ names
    · rw [time?_of_not_counts hname (hgone hmem), time?_of_not_counts hname (h name hmem)]
    · exact time?_congr (hkept hmem)

end Footprint

section Set

variable {claims : Claims} {name : String} {v : Value}

theorem nonemptyText?_set_self {s : String} (hs : s ≠ "") :
    nonemptyText? (Object.set claims name (.text s)) name = some s :=
  nonemptyText?_eq_some_iff.mpr ⟨Object.get?_set_self claims name (.text s), hs⟩

theorem nonemptyText?_set_of_ne {other : String} (h : other ≠ name) :
    nonemptyText? (Object.set claims name v) other = nonemptyText? claims other :=
  nonemptyText?_congr (Object.get?_set_of_ne h)

theorem time?_set_of_ne {other : String} (h : other ≠ name) :
    time? (Object.set claims name v) other = time? claims other :=
  time?_congr (Object.get?_set_of_ne h)

theorem time?_set_self {n : Number} {t : DateTime} (hn : v.number? = some n)
    (ht : DateTime.ofNumber n = .ok t) : time? (Object.set claims name v) name = some t := by
  refine time?_eq_some_iff.mpr ⟨n, ?_, ht⟩
  rw [Object.getD, Object.get?_set_self]
  exact hn

/-- A subject remains an object when its identifier is overridden, and does not remember the last one
when it is overridden again. -/
theorem exists_object_overrideId (o : Object) (id : Option String) :
    ∃ o', overrideId (.object o) id = .object o' ∧
      ∀ v, Object.set o' "id" v = Object.set o "id" v := by
  cases id with
  | none => exact ⟨o, rfl, fun _ => rfl⟩
  | some s => exact ⟨_, rfl, fun v => Object.set_set o "id" _ v⟩

/-- Setting a claim that counts changes the field of the claim. -/
theorem overrides_of_counts {d : Credential} {o : Object} (hsubject : d.subject = .object o)
    (h : Counts name v) :
    Overrides (overrideCredential claims d) name v
      (overrideCredential (Object.set claims name v) d) := by
  cases h with
  | @name s hname hs =>
    simp only [overlayNames, List.mem_cons, List.not_mem_nil, or_false] at hname
    rcases hname with rfl | rfl | rfl
    · have hset : overrideCredential (Object.set claims "jti" (.text s)) d =
          (overrideCredential claims d).set .id (.text s) := by
        simp (disch := decide) only [overrideCredential, nonemptyText?_set_self hs,
          nonemptyText?_set_of_ne, time?_set_of_ne]
        rfl
      exact hset ▸ .id
    · have hset : overrideCredential (Object.set claims "iss" (.text s)) d =
          (overrideCredential claims d).set .issuer (.text s) := by
        simp (disch := decide) only [overrideCredential, nonemptyText?_set_self hs,
          nonemptyText?_set_of_ne, time?_set_of_ne]
        rfl
      exact hset ▸ .issuer
    · obtain ⟨o', ho', hset'⟩ := exists_object_overrideId o (nonemptyText? claims "sub")
      have hset : overrideCredential (Object.set claims "sub" (.text s)) d =
          (overrideCredential claims d).set .subject (.object (Object.set o' "id" (.text s))) := by
        simp (disch := decide) only [overrideCredential, nonemptyText?_set_self hs,
          nonemptyText?_set_of_ne, time?_set_of_ne, hsubject, hset']
        rfl
      have hbefore : (overrideCredential claims d).subject = .object o' := by
        rw [overrideCredential, hsubject]
        exact ho'
      exact hset ▸ .subject hbefore
  | date hname hn hrange =>
    obtain ⟨t, ht⟩ := DateTime.exists_ofNumber_iff.mpr hrange
    simp only [overlayDates, List.mem_cons, List.not_mem_nil, or_false] at hname
    rcases hname with rfl | rfl
    · have hset : overrideCredential (Object.set claims "iat" v) d =
          (overrideCredential claims d).set .issuanceDate (.text t.universalText) := by
        simp (disch := decide) only [overrideCredential, time?_set_self hn ht,
          nonemptyText?_set_of_ne, time?_set_of_ne]
        rfl
      exact hset ▸ .issuanceDate hn ht
    · have hset : overrideCredential (Object.set claims "exp" v) d =
          (overrideCredential claims d).set .expirationDate (.text t.universalText) := by
        simp (disch := decide) only [overrideCredential, time?_set_self hn ht,
          nonemptyText?_set_of_ne, time?_set_of_ne]
        rfl
      exact hset ▸ .expirationDate hn ht

theorem Counts.ne_vc (h : Counts name v) : "vc" ≠ name := by
  rintro rfl
  cases h with
  | name hname => exact absurd hname (by decide)
  | date hname => exact absurd hname (by decide)

theorem exists_toCredential_set {c : Credential} (h : toCredential claims = .ok c)
    (hcounts : Counts name v) :
    ∃ d, Overrides c name v d ∧ toCredential (Object.set claims name v) = .ok d := by
  obtain ⟨o, d, hvc, hd, rfl⟩ := toCredential_eq_ok_iff.mp h
  obtain ⟨subject, hsubject⟩ := Credential.subject_of_ofValue hd
  have hvc' : Object.get? (Object.set claims name v) "vc" = some (.object o) :=
    (Object.get?_set_of_ne hcounts.ne_vc).trans hvc
  exact ⟨_, overrides_of_counts hsubject hcounts,
    toCredential_eq_ok_iff.mpr ⟨o, d, hvc', hd, rfl⟩⟩

/-- The credential has been changed by each claim that counts and is there. -/
theorem exists_toCredential_erase {c : Credential} (h : toCredential claims = .ok c)
    (hv : Object.get? claims name = some v) (hcounts : Counts name v) :
    ∃ d, toCredential (Object.erase claims name) = .ok d ∧ Overrides d name v c := by
  obtain ⟨o, d, hvc, hd, rfl⟩ := toCredential_eq_ok_iff.mp h
  have hvc' : Object.get? (Object.erase claims name) "vc" = some (.object o) :=
    (Object.get?_erase_of_ne hcounts.ne_vc).trans hvc
  have herased : toCredential (Object.erase claims name) =
      .ok (overrideCredential (Object.erase claims name) d) :=
    toCredential_eq_ok_iff.mpr ⟨o, d, hvc', hd, rfl⟩
  obtain ⟨c', hc', hset⟩ := exists_toCredential_set herased hcounts
  have hagree : toCredential (Object.set (Object.erase claims name) name v) =
      toCredential claims := by
    refine toCredential_of_agree fun other _ => ?_
    rw [Object.get?_set, Object.get?_erase]
    split
    · rename_i hname
      rw [hname, hv]
    · rfl
  obtain rfl : c' = overrideCredential claims d := Except.ok.inj ((hset.symm.trans hagree).trans h)
  exact ⟨_, herased, hc'⟩

theorem toCredential_set_comm {a b : String} (h : a ≠ b) (v w : Value) :
    toCredential (Object.set (Object.set claims a v) b w) =
      toCredential (Object.set (Object.set claims b w) a v) := by
  refine toCredential_of_agree fun name _ => ?_
  simp only [Object.get?_set]
  by_cases ha : name = a
  · have hb : name ≠ b := fun hb => h (ha.symm.trans hb)
    simp only [ha, if_true, if_neg (ha ▸ hb)]
  · simp only [if_neg ha]

end Set

/-- Claims that do not count are of no account, and one that counts changes its own field, whatever the
others do. -/
theorem overlay_lenient {claims : Claims} {c : Credential} (h : toCredential claims = .ok c) :
    (∀ names : List String, "vc" ∉ names →
      (∀ name ∈ names, ∀ v, Object.get? claims name = some v → ¬Counts name v) →
      toCredential (names.foldl Object.erase claims) = .ok c) ∧
    (∀ claims' : Claims,
      (∀ name ∈ credentialNames, Object.get? claims' name = Object.get? claims name) →
      toCredential claims' = .ok c) ∧
    (∀ name v, Object.get? claims name = some v → Counts name v →
      ∃ d, toCredential (Object.erase claims name) = .ok d ∧ Overrides d name v c) ∧
    (∀ name v, Counts name v →
      ∃ d, Overrides c name v d ∧ toCredential (Object.set claims name v) = .ok d) ∧
    ∀ a b v w, a ≠ b → Counts a v → Counts b w → ∃ ca cb d,
      Overrides c a v ca ∧ Overrides ca b w d ∧ Overrides c b w cb ∧ Overrides cb a v d ∧
      toCredential (Object.set (Object.set claims a v) b w) = .ok d ∧
      toCredential (Object.set (Object.set claims b w) a v) = .ok d := by
  refine ⟨?_, ?_, ?_, ?_, ?_⟩
  · intro names hvc hnames
    rw [toCredential_erase hvc hnames, h]
  · intro claims' hagree
    rw [toCredential_of_agree hagree, h]
  · intro name v hv hcounts
    exact exists_toCredential_erase h hv hcounts
  · intro name v hcounts
    exact exists_toCredential_set h hcounts
  · intro a b v w hne ha hb
    obtain ⟨ca, hca, ha'⟩ := exists_toCredential_set h ha
    obtain ⟨cb, hcb, hb'⟩ := exists_toCredential_set h hb
    obtain ⟨d, hd, hab⟩ := exists_toCredential_set ha' hb
    obtain ⟨d', hd', hba⟩ := exists_toCredential_set hb' ha
    have hcomm := hab.symm.trans (toCredential_set_comm hne v w)
    obtain rfl := Except.ok.inj (hcomm.trans hba)
    exact ⟨ca, cb, d, hca, hd, hcb, hd', hab, hba⟩

/-- The identifier of this credential is a number, which does not count, and its subject has a name that
its identifier leaves alone. -/
theorem overlay_lenient_numberId :
    let claims : Claims := [("jti", .int 5), ("sub", .text "b"),
      ("vc", .object [("credentialSubject", .object [("name", .text "x")])])]
    ∃ c d, toCredential claims = .ok c ∧ toCredential (Object.erase claims "jti") = .ok c ∧
      toCredential (Object.set claims "nbf" (.bool true)) = .ok c ∧
      toCredential (Object.erase claims "sub") = .ok d ∧ Overrides d "sub" (.text "b") c ∧
      c.subject = .object [("name", .text "x"), ("id", .text "b")] ∧
      (∃ e, toCredential (Object.set claims "iss" (.text "a")) = .ok e ∧
        Overrides c "iss" (.text "a") e) ∧
      toCredential (Object.set (Object.set claims "iss" (.text "a")) "jti" (.text "c")) =
        toCredential (Object.set (Object.set claims "jti" (.text "c")) "iss" (.text "a")) := by
  intro claims
  obtain ⟨herase, hagree, hgiven, hset, hcomm⟩ := overlay_lenient (show toCredential claims = .ok _ from rfl)
  have hid : Counts "jti" (.text "c") := .name (by decide) (by decide)
  have hissuer : Counts "iss" (.text "a") := .name (by decide) (by decide)
  obtain ⟨d, hd, hsubject⟩ := hgiven "sub" (.text "b") rfl (.name (by decide) (by decide))
  obtain ⟨e, he, hissued⟩ := hset "iss" (.text "a") hissuer
  obtain ⟨-, -, _, -, -, -, -, hab, hba⟩ := hcomm "iss" "jti" _ _ (by decide) hissuer hid
  refine ⟨_, d, rfl, herase ["jti"] (by decide) fun name hname v hv hcounts => ?_,
    hagree _ fun name hname => Object.get?_set_of_ne ?_, hd, hsubject, rfl, ⟨e, hissued, he⟩,
    hab.trans hba.symm⟩
  · obtain rfl := List.mem_singleton.mp hname
    obtain rfl : Value.int 5 = v := Option.some.inj hv
    cases hcounts with
    | date hdate => exact absurd hdate (by decide)
  · rintro rfl
    exact absurd hname (by decide)

end Claims

end Attest
