import Attest.Model.Mapping

/-! A credential that is edited as a model behaves as the credential does: reading and giving a field,
the object, and the claim set agree. -/

namespace Attest.Model

theorem get_ofCredential (c : Credential) (f : Credential.Field) :
    (ofCredential c).get f.name = .ok (c.get f) := by
  cases f <;> rfl

theorem give_ofCredential (c : Credential) (f : Credential.Field) (v : Value) :
    (ofCredential c).give f.name v = ofCredential (c.set f v) := by
  cases f <;> rfl

theorem memberName_field (f : Credential.Field) :
    memberName (.object Subject.credential.memberNames) ⟨f.name, f.member, f.default⟩ =
      .ok f.member := by
  cases f <;> rfl

theorem subjectId_ofCredential (c : Credential) :
    (ofCredential c).subjectId = c.subjectId.map .text := by
  show (do return .text (← Credential.identifierOf c.subject) : Except Value.Fault Value) = _
  rw [Credential.subjectId]
  cases Credential.identifierOf c.subject <;> rfl

theorem fields_ofCredential (c : Credential) : (ofCredential c).fields = .ok c.fields := rfl

theorem isEmpty_ofCredential (c : Credential) : (ofCredential c).isEmpty = .ok c.isEmpty := rfl

theorem addMember_ofCredential (c : Credential) (o : Object) (f : Credential.Field) :
    (ofCredential c).addMember (.object Subject.credential.memberNames) o
        ⟨f.name, f.member, f.default⟩ =
      .ok (if (c.get f).isEmpty then o else Object.set o f.member (c.get f)) := by
  rw [addMember, get_ofCredential]
  show (if (c.get f).isEmpty then _ else _) = _
  rw [memberName_field]
  cases (c.get f).isEmpty <;> rfl

/-- Members of fields that an object has not yet are added at its end. -/
theorem foldl_members (c : Credential) (fs : List Credential.Field) (hf : fs.Nodup) (o : Object)
    (ho : ∀ f ∈ fs, f.member ∉ Object.names o) :
    fs.foldlM (fun o f => (ofCredential c).addMember (.object Subject.credential.memberNames) o
        ⟨f.name, f.member, f.default⟩) o =
      .ok (o ++ fs.filterMap fun f =>
        if (c.get f).isEmpty then none else some (f.member, c.get f)) := by
  induction fs generalizing o with
  | nil => simp; rfl
  | cons f rest ih =>
    rw [List.foldlM_cons, addMember_ofCredential]
    obtain ⟨hmem, hrest⟩ := List.nodup_cons.1 hf
    show List.foldlM _ (if (c.get f).isEmpty then o else Object.set o f.member (c.get f)) rest = _
    cases h : (c.get f).isEmpty
    · have hset : Object.set o f.member (c.get f) = o ++ [(f.member, c.get f)] :=
        Object.set_of_not_mem _ (ho f (by simp))
      simp only [Bool.false_eq_true, if_false, hset]
      rw [ih hrest]
      · simp [h]
      · intro g hg
        simp only [Object.names, List.map_append, List.mem_append, not_or]
        refine ⟨ho g (by simp [hg]), ?_⟩
        simp
        intro e
        exact hmem (Credential.Field.member_injective e ▸ hg)
    · simp only [if_true]
      rw [ih hrest o fun g hg => ho g (by simp [hg])]
      simp [h]

/-- The object of a credential. -/
theorem toObject_ofCredential (c : Credential) : (ofCredential c).toObject = .ok c.toObject := by
  have h : Subject.credential.fields.foldlM
      ((ofCredential c).addMember (.object Subject.credential.memberNames)) [] =
      .ok c.toObject := by
    rw [Subject.fields, List.foldlM_map, foldl_members c _ (by decide) [] (by simp [Object.names])]
    rfl
  show (Subject.credential.fields.foldlM
    ((ofCredential c).addMember (.object Subject.credential.memberNames)) [] >>= Except.ok) = _
  rw [h]
  rfl

theorem delete_identifier {subject : Value} {id : String}
    (h : Credential.identifierOf subject = .ok id) (hid : id.isEmpty = false) :
    (Edit.delete (.text "id")).apply subject = .ok (subject.movedId id) := by
  have hne : id ≠ "" := by
    intro e
    simp [e] at hid
  unfold Credential.identifierOf at h
  split at h
  · cases subject with
    | object o =>
      cases hget : Object.get? o "id" with
      | none =>
        simp only [hget, Except.ok.injEq] at h
        exact absurd h.symm hne
      | some v =>
        show (Edit.deleteMember o (.text "id") >>= fun o => Except.ok (Value.object o)) = _
        rw [Edit.deleteMember_of_get? hget]
        simp only [Value.movedId, hid]
        rfl
    | _ => simp at h
  · exact absurd (Except.ok.inj h).symm hne

theorem forgetSubject_ofCredential (c : Credential) {id : String} (h : c.subjectId = .ok id) :
    (ofCredential c).forgetSubject (.text id) =
      .ok (ofCredential (c.set .subject (c.subject.movedId id))) := by
  unfold forgetSubject
  cases hid : id.isEmpty
  · rw [if_pos (by simp [Value.isTruthy, Value.isEmpty, hid])]
    have hget : (ofCredential c).get "credential_subject" = .ok c.subject :=
      get_ofCredential c .subject
    rw [hget]
    show ((Edit.delete (.text "id")).apply c.subject >>= fun v =>
      .ok ((ofCredential c).give "credential_subject" v)) = _
    rw [delete_identifier h hid]
    exact congrArg Except.ok (give_ofCredential c .subject _)
  · rw [if_neg (by simp [Value.isTruthy, Value.isEmpty, hid])]
    have hs : c.subject.movedId id = c.subject := by
      cases hv : c.subject <;> simp [Value.movedId, hid]
    rw [hs]
    cases c
    rfl

/-- What is left of a credential when its claims are taken out. -/
theorem remainder_ofCredential (c : Credential) {id : String} (h : c.subjectId = .ok id) :
    ((ofCredential c).give "expiration_date" c.expirationDate.moved).remainder c.id (.text id) =
      .ok (c.remainder id).toObject := by
  have hc : (ofCredential c).give "expiration_date" c.expirationDate.moved =
      ofCredential (c.set .expirationDate c.expirationDate.moved) :=
    give_ofCredential c .expirationDate _
  rw [hc, remainder, forgetSubject_ofCredential (c.set .expirationDate c.expirationDate.moved) h,
    ← toObject_ofCredential]
  rfl

/-- The claim set of a credential, with the same error if there is none. -/
theorem claims_ofCredential (nonce : String) (c : Credential) :
    (ofCredential c).claims nonce = Claims.ofCredential nonce c := by
  unfold claims Claims.ofCredential
  rw [isEmpty_ofCredential]
  cases c.isEmpty
  · show (if !c.proof.isNull then _ else _) = (if !c.proof.isNull then _ else _)
    cases c.proof.isNull
    · rfl
    · show (Claims.setIfTruthy [] "exp" c.expirationDate >>= _) =
        (Claims.setIfTruthy [] "exp" c.expirationDate >>= _)
      congr 1
      funext claims
      show (Claims.set claims "nonce" (.text nonce) >>= _) =
        (Claims.set claims "nonce" (.text nonce) >>= _)
      congr 1
      funext claims
      show (Claims.setIfTruthy claims "iss" c.issuer >>= _) =
        (Claims.setIfTruthy claims "iss" c.issuer >>= _)
      congr 1
      funext claims
      show (Claims.setIfTruthy claims "iat" c.issuanceDate >>= _) =
        (Claims.setIfTruthy claims "iat" c.issuanceDate >>= _)
      congr 1
      funext claims
      congr 1
      funext claims
      show (Claims.setIfTruthy claims "jti" c.id >>= _) =
        (Claims.setIfTruthy claims "jti" c.id >>= _)
      congr 1
      funext claims
      have hm : ((ofCredential c).give "expiration_date" c.expirationDate.moved).subjectId =
          c.subjectId.map .text :=
        subjectId_ofCredential (c.set .expirationDate c.expirationDate.moved)
      simp only [Credential.get]
      rw [hm]
      cases h : c.subjectId with
      | error f => rfl
      | ok id =>
        show (Claims.setIfTruthy claims "sub" (.text id) >>= _) =
          (Claims.setIfTruthy claims "sub" (.text id) >>= _)
        congr 1
        funext claims
        rw [remainder_ofCredential c h]
        rfl
  · rfl

end Attest.Model
