import Attest.Proofs.Claims.Setting
import Attest.Proofs.Verification.Audience

/-! Claim sets that come about by setting one claim after the other, where a claim that does not fit
is refused and the others go on. A claim set that is made in this way has its dates, its names and
its audience in the types that they should have, and what was set is what is read. -/

namespace Attest

namespace Claims

/-- Something that is done to a claim set and may fail; what it did to the claim set stays done in
both cases. -/
abbrev Change := ExceptT Error (StateM Claims) Unit

/-- Sets a claim: the value that it gets is found first, and written after that. -/
def change (name : String) (v : Value) : Change := do
  let w ← (normalize name v : Except Error Value)
  modify fun claims => Object.set claims name w

/-- The claim set after claims were set, whether or not those before them failed. -/
def changes (calls : List (String × Value)) (claims : Claims) : Claims :=
  calls.foldl (fun claims call => (change call.1 call.2 claims).2) claims

/-- A claim set has its dates, names and audience in the types that they should have. -/
structure Typed (claims : Claims) : Prop where
  dates : ∀ name ∈ ["exp", "nbf", "iat"], ∀ v, (name, v) ∈ claims → ∃ i, v = .int i
  names : ∀ name ∈ ["iss", "sub", "jti"], ∀ v, (name, v) ∈ claims → ∃ s, v = .text s
  audience : ∀ v, ("aud", v) ∈ claims → ∃ names : List String, v = .list (names.map .text)

/-- What is read of a claim is the value that it was set to: the seconds that a date stands for and
their point in time, the text that is a name, all names of an audience, and any other value as it
is. -/
inductive Shows (claims : Claims) : (name : String) → Value → Prop
  | date {name : String} {v : Value} {n : Int} (htime : isTime name = true)
      (hdate : numericDate name v = .ok n) (hget : Object.get? claims name = some (.int n))
      (hread : time? claims name = (DateTime.ofSeconds n 0).toOption) : Shows claims name v
  | name {name s : String} (hname : isName name = true) (htext : text? claims name = some s) :
      Shows claims name (.text s)
  | oneAudience {s : String} (h : audience claims = [s]) : Shows claims "aud" (.text s)
  | audience {names : List String} (h : audience claims = names) :
      Shows claims "aud" (.list (names.map .text))
  | untyped {name : String} {v : Value} (htime : isTime name = false) (hname : isName name = false)
      (haud : name ≠ "aud") (hget : Object.get? claims name = some v)
      (htext : text? claims name = v.text?) : Shows claims name v

variable {claims claims' : Claims} {name : String} {v w : Value}

theorem change_apply (claims : Claims) (name : String) (v : Value) :
    change name v claims = match set claims name v with
      | .ok claims' => (.ok (), claims')
      | .error e => (.error e, claims) := by
  unfold change set
  cases normalize name v <;> rfl

theorem set_of_change_eq_ok (h : change name v claims = (.ok (), claims')) :
    set claims name v = .ok claims' := by
  rw [change_apply] at h
  split at h
  · rename_i c hc
    cases h
    exact hc
  · cases h

theorem eq_of_change_eq_error {e : Error} (h : change name v claims = (.error e, claims')) :
    claims' = claims := by
  rw [change_apply] at h
  split at h
  · cases h
  · cases h
    rfl

theorem normalize_aud_eq (v : Value) : normalize "aud" v =
    if isAudience v then (match v with | .text s => .ok (.list [.text s]) | v => .ok v)
    else .error (.claim "aud" (some .notAudience)) := rfl

theorem normalize_aud (h : normalize "aud" v = .ok w) :
    ∃ names : List String, w = .list (names.map .text) ∧
      ((∃ s, v = .text s ∧ names = [s]) ∨ v = .list (names.map .text)) := by
  rw [normalize_aud_eq] at h
  split at h
  · rename_i hvalid
    cases v with
    | text s =>
      obtain rfl := Except.ok.inj h
      exact ⟨[s], rfl, .inl ⟨s, rfl, rfl⟩⟩
    | list items =>
      obtain rfl := Except.ok.inj h
      obtain ⟨names, rfl⟩ := all_isText_iff.mp hvalid
      exact ⟨names, rfl, .inr rfl⟩
    | _ => cases hvalid
  · cases h

theorem isTime_iff : isTime name = true ↔ name ∈ ["exp", "nbf", "iat"] := by
  simp [isTime, or_assoc]

theorem isName_iff : isName name = true ↔ name ∈ ["iss", "sub", "jti"] := by
  simp [isName, or_assoc]

theorem typed_nil : Typed [] := ⟨nofun, nofun, nofun⟩

theorem Typed.set (h : Typed claims) (hset : set claims name v = .ok claims') : Typed claims' := by
  obtain ⟨w, hw, rfl⟩ := set_eq_ok_iff.mp hset
  constructor
  · intro other hother u hmem
    rcases Object.mem_set hmem with hnew | hold
    · obtain ⟨rfl, rfl⟩ := Prod.mk.inj hnew
      obtain ⟨i, -, hi⟩ := exists_numericDate_of_normalize (isTime_iff.mpr hother) hw
      exact ⟨i, hi⟩
    · exact h.dates other hother u hold
  · intro other hother u hmem
    rcases Object.mem_set hmem with hnew | hold
    · obtain ⟨rfl, rfl⟩ := Prod.mk.inj hnew
      obtain ⟨htext, rfl⟩ := (normalize_name (isName_iff.mpr hother)).mp hw
      exact Value.exists_of_isText htext
    · exact h.names other hother u hold
  · intro u hmem
    rcases Object.mem_set hmem with hnew | hold
    · obtain ⟨rfl, rfl⟩ := Prod.mk.inj hnew
      obtain ⟨names, hnames, -⟩ := normalize_aud hw
      exact ⟨names, hnames⟩
    · exact h.audience u hold

theorem Typed.change (h : Typed claims) (name : String) (v : Value) :
    Typed (Claims.change name v claims).2 := by
  rcases hchange : Claims.change name v claims with ⟨e | _, claims'⟩
  · exact eq_of_change_eq_error hchange ▸ h
  · exact h.set (set_of_change_eq_ok hchange)

theorem Typed.changes (h : Typed claims) (calls : List (String × Value)) :
    Typed (changes calls claims) := by
  induction calls generalizing claims with
  | nil => exact h
  | cons call rest ih => exact ih (h.change call.1 call.2)

theorem shows_of_set (h : set claims name v = .ok claims') : Shows claims' name v := by
  obtain ⟨w, hw, rfl⟩ := set_eq_ok_iff.mp h
  have hget := Object.get?_set_self claims name w
  cases htime : isTime name with
  | true =>
    obtain ⟨n, hdate, rfl⟩ := exists_numericDate_of_normalize htime hw
    refine .date htime hdate hget ?_
    rw [time?, Object.getD, hget]
    rfl
  | false =>
    have htext : text? (Object.set claims name w) name = w.text? := by
      rw [text?, Object.getD, hget, Option.getD_some]
    cases hname : isName name with
    | true =>
      obtain ⟨hisText, rfl⟩ := (normalize_name hname).mp hw
      obtain ⟨s, rfl⟩ := Value.exists_of_isText hisText
      exact .name hname htext
    | false =>
      by_cases haud : name = "aud"
      · subst haud
        obtain ⟨names, rfl, hv⟩ := normalize_aud hw
        have hnames : audience (Object.set claims "aud" (.list (names.map .text))) = names := by
          rw [audience, Object.getD, hget]
          exact filterMap_text? names
        rcases hv with ⟨s, rfl, rfl⟩ | rfl
        · exact .oneAudience hnames
        · exact .audience hnames
      · obtain rfl : v = w := by simpa [normalize, htime, hname, haud] using hw
        exact .untyped htime hname haud hget htext

theorem Typed.hasValidAudience (h : Typed claims) : hasValidAudience claims = true := by
  unfold Claims.hasValidAudience
  cases haud : Object.get? claims "aud" with
  | none => rfl
  | some v =>
    obtain ⟨before, after, hclaims, -⟩ := List.lookup_eq_some_iff.mp haud
    obtain ⟨names, rfl⟩ := h.audience v (hclaims ▸ List.mem_append_right _ List.mem_cons_self)
    exact all_isText_iff.mpr ⟨names, rfl⟩

end Claims

namespace ParsedToken

theorem readClaims_audience {payload : Bytes} (h : readClaims payload = .error (.token .audience)) :
    ∃ claims, Json.readBytes Json.digitLimit payload = .ok (.object claims) ∧
      Claims.hasValidAudience claims = false := by
  unfold readClaims at h
  split at h
  · cases h
  · cases h
  · rename_i claims hread
    split at h
    · cases h
    · rename_i haudience
      exact ⟨claims, hread, Bool.eq_false_iff.mpr haudience⟩
  · cases h

/-- A token is rejected for its audience only if its payload is an object of which the audience is
not valid. -/
theorem hasPayload_of_audience {token : Value} (h : ofValue token = .error (.token .audience)) :
    ∃ claims, token.HasPayload claims ∧ Claims.hasValidAudience claims = false := by
  cases token with
  | text s =>
    replace h : ofText s = .error (.token .audience) := h
    unfold ofText at h
    rcases Except.bind_eq_error_iff.mp h with htoken | ⟨bytes, hbytes, h⟩
    · obtain ⟨_, -, he⟩ := Except.mapError_eq_error_iff.mp htoken
      cases he
    rcases Except.bind_eq_error_iff.mp h with hcompact | ⟨c, hc, h⟩
    · obtain ⟨_, -, he⟩ := Except.mapError_eq_error_iff.mp hcompact
      cases he
    rcases Except.bind_eq_error_iff.mp h with hclaims | ⟨claims, -, h⟩
    · obtain ⟨claims, hread, haudience⟩ := readClaims_audience hclaims
      obtain ⟨-, rfl⟩ := Text.ascii_eq_ok_iff.mp
        (Except.mapError_eq_ok_iff.mp (Except.mapError_eq_ok_iff.mp hbytes))
      have hextracted := Jws.extract_eq_ok_iff.mp (Except.mapError_eq_ok_iff.mp hc)
      exact ⟨claims, ⟨s, c, rfl, hextracted, hread⟩, haudience⟩
    · rcases Except.bind_eq_error_iff.mp h with hheaders | ⟨_, -, h⟩
      · obtain ⟨_, -, he⟩ := Except.mapError_eq_error_iff.mp hheaders
        cases he
      · cases h
  | _ => cases h

end ParsedToken

namespace Claims

/-- Whatever claims are set one after the other, and whichever of them are refused, the claim set
has its dates, names and audience in the types that they should have. A claim that is refused leaves
it as it was, one that is set is read as what it was set to and changes no other, and no token is
rejected for an audience that was set in this way. -/
theorem changes_typed (calls : List (String × Value)) :
    Typed (changes calls []) ∧
    (∀ name v e claims', change name v (changes calls []) = (.error e, claims') →
      claims' = changes calls []) ∧
    (∀ name v claims', change name v (changes calls []) = (.ok (), claims') →
      Shows claims' name v ∧
        ∀ other ≠ name, Object.get? claims' other = Object.get? (changes calls []) other) ∧
    (∀ token payload, token.HasPayload payload →
      Object.get? payload "aud" = Object.get? (changes calls []) "aud" →
      ParsedToken.ofValue token ≠ .error (.token .audience)) := by
  have htyped : Typed (changes calls []) := typed_nil.changes calls
  refine ⟨htyped, fun name v e claims' => eq_of_change_eq_error, ?_, ?_⟩
  · intro name v claims' h
    have hset := set_of_change_eq_ok h
    exact ⟨shows_of_set hset, fun other hne => get?_of_set hset hne⟩
  · intro token payload hpayload haud h
    obtain ⟨payload', hpayload', hinvalid⟩ := ParsedToken.hasPayload_of_audience h
    rw [← Value.payload?_eq_some_iff] at hpayload hpayload'
    obtain rfl := Option.some.inj (hpayload.symm.trans hpayload')
    have hvalid := htyped.hasValidAudience
    rw [Claims.hasValidAudience, ← haud] at hvalid
    exact absurd hvalid (Bool.eq_false_iff.mp hinvalid)

/-- A token without a signature that is meant for a list of one name. -/
def tokenForList : String := "eyJhbGciOiJub25lIn0.eyJhdWQiOlsidiJdfQ."

/-- A value is a list of this name and no other. -/
def isListOf (name : String) : Value → Bool
  | .list [.text s] => s == name
  | _ => false

theorem tokenForList_hasPayload : ∃ payload, (Value.text tokenForList).HasPayload payload ∧
    Object.get? payload "aud" = some (.list [.text "v"]) := by
  have h : ((Value.text tokenForList).payload?.bind fun o => Object.get? o "aud").any
    (isListOf "v") = true := by decide +kernel
  obtain ⟨v, hv, hlist⟩ := (Option.any_eq_true _ _).mp h
  obtain ⟨payload, hpayload, hget⟩ := Option.bind_eq_some_iff.mp hv
  refine ⟨payload, Value.payload?_eq_some_iff.mp hpayload, ?_⟩
  unfold isListOf at hlist
  split at hlist
  · rw [hget, beq_iff_eq.mp hlist]
  · cases hlist

/-- An audience, an issuer that is refused and a date are set; after that an end that is refused and
an audience of two. -/
theorem changes_typed_refused :
    let calls : List (String × Value) := [("aud", .text "v"), ("iss", .int 1), ("nbf", .int 60)]
    changes calls [] = [("aud", .list [.text "v"]), ("nbf", .int 60)] ∧ Typed (changes calls []) ∧
    (∃ e, change "exp" (.bool true) (changes calls []) = (.error e, changes calls [])) ∧
    (∃ claims', change "aud" (.list [.text "v", .text "w"]) (changes calls []) = (.ok (), claims') ∧
      Shows claims' "aud" (.list [.text "v", .text "w"]) ∧ audience claims' = ["v", "w"] ∧
      Object.get? claims' "nbf" = some (.int 60)) ∧
    ParsedToken.ofValue (.text tokenForList) ≠ .error (.token .audience) := by
  intro calls
  have hcalls : changes calls [] = [("aud", .list [.text "v"]), ("nbf", .int 60)] := rfl
  obtain ⟨htyped, hrefused, hset, htoken⟩ := changes_typed calls
  rw [hcalls] at htyped hrefused hset htoken ⊢
  refine ⟨rfl, htyped, ?_, ?_, ?_⟩
  · have he : change "exp" (.bool true) [("aud", .list [.text "v"]), ("nbf", .int 60)] =
      (.error (.claim "exp" (some .notDate)), _) := rfl
    exact ⟨_, he.trans (congrArg _ (hrefused _ _ _ _ he))⟩
  · obtain ⟨hshows, hother⟩ := hset "aud" (.list [.text "v", .text "w"]) _ rfl
    exact ⟨_, rfl, hshows, rfl, hother "nbf" (by decide)⟩
  · obtain ⟨payload, hpayload, haud⟩ := tokenForList_hasPayload
    exact htoken _ payload hpayload haud

end Claims

end Attest
