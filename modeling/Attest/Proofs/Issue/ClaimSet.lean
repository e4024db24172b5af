import Attest.Proofs.Issue.Once

/-! The claim set that is signed for a presentation, member by member. Each claim appends one member
of a new name, or none, so the claim set is written down as one list. A presentation that may not be
signed fails before the signer sees anything. -/

namespace Attest

namespace Object

/-- The member of a name, if its value is given. -/
def optional (name : String) (v : Option Value) : Object := (v.map fun w => (name, w)).toList

@[simp] theorem optional_none (name : String) : optional name none = [] := rfl

@[simp] theorem optional_some (name : String) (v : Value) : optional name (some v) = [(name, v)] :=
  rfl

@[simp] theorem names_append (o o' : Object) : names (o ++ o') = names o ++ names o' :=
  List.map_append

@[simp] theorem names_cons (m : String × Value) (o : Object) :
    names (m :: o) = m.1 :: names o := rfl

@[simp] theorem names_nil : names [] = [] := rfl

@[simp] theorem not_mem_names_optional {name other : String} (h : name ≠ other) (v : Option Value) :
    name ∉ names (optional other v) := by
  cases v <;> simp [h]

theorem filter_member (v : Option Value) (name : String) (keeps : String → Bool) :
    ((v.map fun w => (name, w)).filter fun m => keeps m.1) =
      if keeps name then v.map fun w => (name, w) else none := by
  cases v with
  | none => exact (ite_self none).symm
  | some w => exact Option.filter_some

end Object

/-- A value, if it counts as true. -/
def Value.truthy? (v : Value) : Option Value := if v.isTruthy then some v else none

namespace PresentationTerms

/-- Terms of use of the types that they should have: an audience, if any, and a whole number of
seconds for the expiration, zero if there are no terms. -/
inductive Give : Option PresentationTerms → (audience : Option (List String)) →
    (expiration : Int) → Prop
  | nothing : Give none none 0
  | noAudience (i : Int) : Give (some ⟨.null, .int i⟩) none i
  | one (name : String) (i : Int) : Give (some ⟨.text name, .int i⟩) (some [name]) i
  | several (names : List String) (i : Int) :
      Give (some ⟨.list (names.map .text), .int i⟩) (some names) i

end PresentationTerms

namespace Presentation

/-- The field of a presentation that is the member of this name has a claim of its own: it is the
identifier or the holder, and does not count as false. -/
def isClaimed (p : Presentation) (name : String) : Bool :=
  name == "id" && p.id.isTruthy || name == "holder" && p.holder.isTruthy

/-- The members of the object of a presentation that have no claim of their own. -/
def unclaimed (p : Presentation) (o : Object) : Object := o.filter fun m => !p.isClaimed m.1

theorem nonempty?_get_remainder (p : Presentation) (f : Field) :
    (p.remainder.get f).nonempty? = if p.isClaimed f.member then none else (p.get f).nonempty? := by
  rw [Issue.get_remainder]
  cases f with
  | id =>
    have hid : p.isClaimed Field.id.member = p.id.isTruthy := by
      simp [isClaimed, Field.member, Field.name]
    rw [hid]
    exact Value.nonempty?_moved p.id
  | holder =>
    have hholder : p.isClaimed Field.holder.member = p.holder.isTruthy := by
      simp [isClaimed, Field.member, Field.name]
    rw [hholder]
    exact Value.nonempty?_moved p.holder
  | context | type | submission | credentials | proof => rfl

theorem toObject_remainder {p : Presentation} {o : Object} (h : p.toObject = .ok o) :
    p.remainder.toObject = .ok (p.unclaimed o) := by
  obtain ⟨v, hv, rfl⟩ := toObject_eq_ok_iff.mp h
  refine toObject_eq_ok_iff.mpr ⟨v, hv, ?_⟩
  unfold unclaimed
  rw [List.filter_filterMap]
  congr 1
  funext f
  rw [Object.filter_member _ _ fun name => !p.isClaimed name, get_set, get_set]
  by_cases hf : f = .credentials
  · subst hf
    rfl
  · rw [if_neg hf, if_neg hf, nonempty?_get_remainder]
    cases p.isClaimed f.member <;> rfl

theorem toObject_remainder_eq_ok_iff {p : Presentation} {o : Object} :
    p.remainder.toObject = .ok o ↔ ∃ full, p.toObject = .ok full ∧ o = p.unclaimed full := by
  constructor
  · intro h
    obtain ⟨v, hv, -⟩ := toObject_eq_ok_iff.mp h
    have hfull := (toObject_eq_ok_iff (p := p)).mpr ⟨v, hv, rfl⟩
    exact ⟨_, hfull, Except.ok.inj (h.symm.trans (toObject_remainder hfull))⟩
  · rintro ⟨full, hfull, rfl⟩
    exact toObject_remainder hfull

end Presentation

namespace Claims

variable {claims claims' : Claims} {name : String} {v w : Value}

theorem set_new (hnew : name ∉ Object.names claims) (hw : normalize name v = .ok w) :
    set claims name v = .ok (claims ++ [(name, w)]) :=
  set_eq_ok_iff.mpr ⟨w, hw, (Object.set_of_not_mem w hnew).symm⟩

theorem set_new_eq_ok_iff (hw : normalize name v = .ok w) (hnew : name ∉ Object.names claims) :
    set claims name v = .ok claims' ↔ claims' = claims ++ [(name, w)] := by
  rw [set_new hnew hw, Except.ok_eq_ok_iff]

theorem setName_new_eq_ok_iff (hname : isName name = true) (hnew : name ∉ Object.names claims) :
    setIfTruthy claims name v = .ok claims' ↔ (v.isTruthy = true → v.isText = true) ∧
      claims' = claims ++ Object.optional name v.truthy? := by
  unfold setIfTruthy Value.truthy?
  cases v.isTruthy with
  | false =>
    simp only [Bool.false_eq_true, if_false, Object.optional_none, List.append_nil, false_imp_iff,
      true_and]
    exact Except.ok_eq_ok_iff
  | true =>
    simp only [if_true, true_imp_iff, Object.optional_some, set_eq_ok_iff, normalize_name hname]
    constructor
    · rintro ⟨_, ⟨htext, rfl⟩, rfl⟩
      exact ⟨htext, Object.set_of_not_mem _ hnew⟩
    · rintro ⟨htext, rfl⟩
      exact ⟨v, ⟨htext, rfl⟩, (Object.set_of_not_mem _ hnew).symm⟩

end Claims

namespace Issue

open PresentationTerms (Give)

variable {w : Surroundings} {signer : Signer} {terms : Option PresentationTerms}
  {audience : Option (List String)} {expiration : Int} {p : Presentation} {claims claims' : Claims}

theorem audienceClaims_of_give (h : Give terms audience expiration) :
    audienceClaims terms =
      .ok (Object.optional "aud" (audience.map fun names => .list (names.map .text))) := by
  cases h with
  | nothing | noAudience => rfl
  | one name i => rfl
  | several names i =>
    have hvalid : Claims.isAudience (.list (names.map .text)) = true :=
      Claims.all_isText_iff.mpr ⟨names, rfl⟩
    have hnormal : Claims.normalize "aud" (.list (names.map .text)) =
        .ok (.list (names.map .text)) := by
      simp [Claims.normalize, Claims.isTime, Claims.isName, hvalid]
    have hnew : "aud" ∉ Object.names [] := List.not_mem_nil
    exact Claims.set_new hnew hnormal

theorem addExpiration_eq_ok_iff (h : Give terms audience expiration)
    (hnew : "exp" ∉ Object.names claims) :
    addExpiration claims terms = .ok claims' ↔ claims' = claims ++
      Object.optional "exp" (if 0 < expiration then some (.int expiration) else none) := by
  suffices hadd : addExpiration claims terms = .ok (claims ++
      Object.optional "exp" (if 0 < expiration then some (.int expiration) else none)) by
    rw [hadd, Except.ok.injEq, eq_comm]
  have hgiven (v : Value) (i : Int) : addExpiration claims (some ⟨v, .int i⟩) =
      .ok (claims ++ Object.optional "exp" (if 0 < i then some (.int i) else none)) := by
    show (if decide (0 < i) = true then claims.set "exp" (.int i) else .ok claims) = _
    simp only [decide_eq_true_eq]
    split
    · exact Claims.set_new hnew rfl
    · exact congrArg Except.ok (List.append_nil claims).symm
  cases h with
  | nothing => exact congrArg Except.ok (List.append_nil claims).symm
  | noAudience => exact hgiven _ _
  | one => exact hgiven _ _
  | several => exact hgiven _ _

theorem addHolder_eq_ok_iff {holder : Value} (hnew : "iss" ∉ Object.names claims) :
    addHolder claims signer holder = .ok claims' ↔
      (holder.isTruthy = true → holder.isText = true ∧ holder = signer.id) ∧
        claims' = claims ++ Object.optional "iss" holder.truthy? := by
  have hset : claims.setIfTruthy "iss" holder = .ok claims' ↔ _ :=
    Claims.setName_new_eq_ok_iff rfl hnew
  constructor
  · intro h
    obtain ⟨htext, hclaims⟩ := hset.mp (addHolder_eq_ok h)
    refine ⟨fun hholder => ⟨htext hholder, ?_⟩, hclaims⟩
    obtain ⟨name, rfl⟩ := Value.exists_of_isText (htext hholder)
    unfold addHolder at h
    rw [if_pos hholder] at h
    split at h
    · rename_i hsame
      exact (Value.same_text.mp hsame).symm
    · cases h
  · rintro ⟨hsigner, hclaims⟩
    have h := hset.mpr ⟨fun hholder => (hsigner hholder).1, hclaims⟩
    unfold Claims.setIfTruthy at h
    unfold addHolder
    split
    · rename_i hholder
      obtain ⟨htext, hid⟩ := hsigner hholder
      obtain ⟨name, rfl⟩ := Value.exists_of_isText htext
      rw [if_pos (Value.same_text.mpr hid.symm)]
      rw [if_pos hholder] at h
      exact h
    · rename_i hholder
      rw [if_neg hholder] at h
      exact h

/-- The claim set of a presentation whose object has the members `full`. -/
def claimSet (nonce : String) (now : Int) (audience : Option (List String)) (expiration : Int)
    (p : Presentation) (full : Object) : Claims :=
  Object.optional "aud" (audience.map fun names => .list (names.map .text)) ++
    [("iat", .int now)] ++ [("nbf", .int now)] ++ [("nonce", .text nonce)] ++
    Object.optional "exp" (if 0 < expiration then some (.int expiration) else none) ++
    Object.optional "jti" p.id.truthy? ++ Object.optional "iss" p.holder.truthy? ++
    [("vp", .object (p.unclaimed full))]

/-- A presentation whose identifier and holder may be claims. -/
structure Claimable (signer : Signer) (p : Presentation) : Prop where
  given : p.isEmpty = false
  unproved : p.proof.isNull = true
  id : p.id.isTruthy = true → p.id.isText = true
  holder : p.holder.isTruthy = true → p.holder.isText = true ∧ p.holder = signer.id

/-- A presentation has exactly one claim set. -/
theorem presentationClaims_eq_ok_iff (hterms : Give terms audience expiration) :
    presentationClaims w signer terms p = .ok claims ↔ Claimable signer p ∧
      ∃ now full, w.now.truncate = .ok now ∧ p.toObject = .ok full ∧
        claims = claimSet w.nonce now audience expiration p full := by
  unfold presentationClaims claimSet
  cases hempty : p.isEmpty with
  | true => exact iff_of_false nofun fun h => nomatch hempty.symm.trans h.1.given
  | false =>
    cases hproof : p.proof.isNull with
    | false => exact iff_of_false nofun fun h => nomatch hproof.symm.trans h.1.unproved
    | true =>
      simp only [Bool.false_eq_true, if_false, Bool.not_true, audienceClaims_of_give hterms,
        Except.bind_eq_ok_iff, Except.ok.injEq, exists_eq_left', Except.mapError_eq_ok_iff,
        Presentation.toObject_remainder_eq_ok_iff]
      constructor
      · rintro ⟨now, hnow, c₁, h₁, c₂, h₂, c₃, h₃, c₄, h₄, c₅, h₅, c₆, h₆, _,
          ⟨full, hfull, rfl⟩, h₇⟩
        obtain rfl := (Claims.set_new_eq_ok_iff rfl (by simp)).mp h₁
        obtain rfl := (Claims.set_new_eq_ok_iff rfl (by simp)).mp h₂
        obtain rfl := (Claims.set_new_eq_ok_iff rfl (by simp)).mp h₃
        obtain rfl := (addExpiration_eq_ok_iff hterms (by simp)).mp h₄
        obtain ⟨hid, rfl⟩ := (Claims.setName_new_eq_ok_iff rfl (by simp)).mp h₅
        obtain ⟨hholder, rfl⟩ := (addHolder_eq_ok_iff (by simp)).mp h₆
        exact ⟨⟨hempty, hproof, hid, hholder⟩, now, full, hnow, hfull,
          (Claims.set_new_eq_ok_iff rfl (by simp)).mp h₇⟩
      · rintro ⟨⟨-, -, hid, hholder⟩, now, full, hnow, hfull, rfl⟩
        exact ⟨now, hnow, _, (Claims.set_new_eq_ok_iff rfl (by simp)).mpr rfl, _,
          (Claims.set_new_eq_ok_iff rfl (by simp)).mpr rfl, _,
          (Claims.set_new_eq_ok_iff rfl (by simp)).mpr rfl, _,
          (addExpiration_eq_ok_iff hterms (by simp)).mpr rfl, _,
          (Claims.setName_new_eq_ok_iff rfl (by simp)).mpr ⟨hid, rfl⟩, _,
          (addHolder_eq_ok_iff (by simp)).mpr ⟨hholder, rfl⟩, _, ⟨full, hfull, rfl⟩,
          (Claims.set_new_eq_ok_iff rfl (by simp)).mpr rfl⟩

/-- What a presentation gets signed does not depend on who signs, and neither does an earlier
failure. -/
theorem presentation_withSign {s : Session} (sign : Value → Value → Except Error String) :
    presentation w { signer with sign } terms p s = (do
      let claims ← Run.ofExcept (presentationClaims w signer terms p)
      let header ← Run.ofExcept (signer.header w.registry)
      let credentials ← Run.ofExcept (p.credentials.size.mapError .ofFault)
      Run.log (.signingPresentation signer.id credentials)
      Run.ofExcept ((sign (.object claims) (.object header)).mapError (.signing .presentation)) :
        Run String) s := rfl

theorem presentation_of_claims {s t : Session} {token : String}
    (h : presentation w signer terms p s = (.ok token, t)) :
    ∃ claims header, presentationClaims w signer terms p = .ok claims ∧
      ∀ sign : Value → Value → Except Error String,
        (presentation w { signer with sign } terms p s).1 =
          (sign (.object claims) (.object header)).mapError (.signing .presentation) := by
  rw [presentation_withSign signer.sign] at h
  simp only [Run.bind_eq_ok_iff, Run.ofExcept_eq_ok_iff] at h
  obtain ⟨claims, _, ⟨hclaims, -⟩, header, _, ⟨hheader, -⟩, credentials, _, ⟨hcredentials, -⟩, -⟩ :=
    h
  refine ⟨claims, header, hclaims, fun sign => ?_⟩
  rw [presentation_withSign, hclaims, Run.ofExcept_bind_ok, hheader, Run.ofExcept_bind_ok,
    hcredentials, Run.ofExcept_bind_ok, Run.log_bind, Run.ofExcept_apply]

theorem presentation_of_no_claims (s : Session)
    (h : ¬∃ claims, presentationClaims w signer terms p = .ok claims) :
    ∃ e, ∀ sign : Value → Value → Except Error String,
      presentation w { signer with sign } terms p s = (.error e, s) := by
  cases hclaims : presentationClaims w signer terms p with
  | ok claims => exact absurd ⟨claims, hclaims⟩ h
  | error e =>
    refine ⟨e, fun sign => ?_⟩
    rw [presentation_withSign, hclaims, Run.ofExcept_bind_error]

/-- What is signed for a presentation is its claim set and nothing else. Nothing is signed for one
that is empty, that has a proof, or whose holder is not the signer: it fails in the same way whoever
signs. -/
theorem presentation_signs_claimSet (w : Surroundings) (signer : Signer)
    (hterms : Give terms audience expiration) (p : Presentation) (s : Session) :
    (∀ token t, presentation w signer terms p s = (.ok token, t) →
      ∃ now full header, w.now.truncate = .ok now ∧ p.toObject = .ok full ∧
        (p.holder.isTruthy = true → p.holder = signer.id) ∧
        signer.sign (.object (claimSet w.nonce now audience expiration p full)) (.object header) =
          .ok token ∧
        ∀ sign : Value → Value → Except Error String,
          (presentation w { signer with sign } terms p s).1 =
            (sign (.object (claimSet w.nonce now audience expiration p full))
              (.object header)).mapError (.signing .presentation)) ∧
    (p.isEmpty = true ∨ p.proof ≠ .null ∨ (p.holder.isTruthy = true ∧ p.holder ≠ signer.id) →
      ∃ e, ∀ sign : Value → Value → Except Error String,
        presentation w { signer with sign } terms p s = (.error e, s)) := by
  constructor
  · intro token t h
    obtain ⟨claims, header, hclaims, hsigns⟩ := presentation_of_claims h
    obtain ⟨hclaimable, now, full, hnow, hfull, rfl⟩ :=
      (presentationClaims_eq_ok_iff hterms).mp hclaims
    have hsigned := hsigns signer.sign
    rw [show presentation w signer terms p s = _ from h] at hsigned
    exact ⟨now, full, header, hnow, hfull, fun hholder => (hclaimable.holder hholder).2,
      Except.mapError_eq_ok_iff.mp hsigned.symm, hsigns⟩
  · intro hrefused
    refine presentation_of_no_claims s ?_
    rintro ⟨claims, hclaims⟩
    obtain ⟨hclaimable, -⟩ := (presentationClaims_eq_ok_iff hterms).mp hclaims
    rcases hrefused with hempty | hproof | ⟨hholder, hother⟩
    · exact Bool.false_ne_true (hclaimable.given.symm.trans hempty)
    · exact hproof (Value.eq_null_of_isNull hclaimable.unproved)
    · exact hother (hclaimable.holder hholder).2

/-- A signer who puts the same token under everything. -/
def stamping : Signer := ⟨.text "a", .null, .text "ES256", fun _ _ => .ok "t"⟩

/-- A presentation of a token and a credential, with an identifier and a holder. -/
def namedPresentation (holder : String) : Presentation :=
  { Verify.mixedPresentation with id := .text "p", holder := .text holder }

/-- All claims are there if all are asked for, and nothing is signed for someone else. -/
theorem presentation_signs_claimSet_named :
    (∃ t full header, presentation ⟨[], "n", .int 7⟩ stamping (some ⟨.text "v", .int 9⟩)
        (namedPresentation "a") .initial = (.ok "t", t) ∧
      claimSet "n" 7 (some ["v"]) 9 (namedPresentation "a") full =
        [("aud", .list [.text "v"]), ("iat", .int 7), ("nbf", .int 7), ("nonce", .text "n"),
          ("exp", .int 9), ("jti", .text "p"), ("iss", .text "a"),
          ("vp", .object
            [("verifiableCredential", .list [.text "x", .object [("id", .text "c")]])])] ∧
      stamping.sign (.object (claimSet "n" 7 (some ["v"]) 9 (namedPresentation "a") full))
        (.object header) = .ok "t") ∧
    ∃ e, ∀ sign : Value → Value → Except Error String,
      presentation ⟨[], "n", .int 7⟩ { stamping with sign } (some ⟨.text "v", .int 9⟩)
        (namedPresentation "b") .initial = (.error e, .initial) := by
  have hterms : Give (some ⟨.text "v", .int 9⟩) (some ["v"]) 9 := .one "v" 9
  constructor
  · have hissue : presentation ⟨[], "n", .int 7⟩ stamping (some ⟨.text "v", .int 9⟩)
        (namedPresentation "a") .initial = (.ok "t", _) := rfl
    obtain ⟨now, full, header, hnow, hfull, -, hsigned, -⟩ :=
      (presentation_signs_claimSet ⟨[], "n", .int 7⟩ stamping hterms _ _).1 _ _ hissue
    obtain rfl : 7 = now := Except.ok.inj hnow
    obtain rfl := Except.ok.inj hfull
    exact ⟨_, _, header, hissue, rfl, hsigned⟩
  · refine (presentation_signs_claimSet _ stamping hterms _ _).2 (.inr (.inr ⟨rfl, ?_⟩))
    intro h
    exact absurd (Value.text.inj h) (by decide)

end Issue

end Attest
