import Attest.Proofs.Issue.Presentation
import Attest.Proofs.Verification.Deadline

/-! What is written to the log. Signing writes one line, and a verification writes who verifies, how far
it comes, and for which identifiers of keys it finds a document. No other part of a token, of its claims
or of an error leaves a trace in the log: two runs that agree in these things write the same lines. -/

namespace Attest

namespace Run

variable {α β : Type}

/-- A run from a session adds some lines to its log. -/
def Writes (run : Run α) (s : Session) (lines : List Event) : Prop :=
  (run s).2.log = s.log ++ lines

/-- A run writes nothing, from whatever session. -/
def Quiet (run : Run α) : Prop := ∀ s, run.Writes s []

theorem quiet_ofExcept (x : Except Error α) : (ofExcept x).Quiet := fun s => (List.append_nil s.log).symm

theorem quiet_fail (e : Error) : (fail e : Run α).Quiet := fun s => (List.append_nil s.log).symm

theorem quiet_pure (a : α) : (pure a : Run α).Quiet := fun s => (List.append_nil s.log).symm

theorem quiet_readClock : readClock.Quiet := fun s => (List.append_nil s.log).symm

theorem Writes.bind {run : Run α} {f : α → Run β} {s : Session} {before after : List Event}
    (h : run.Writes s before) (hok : ∀ a t, run s = (.ok a, t) → (f a).Writes t after)
    (herror : ∀ e t, run s = (.error e, t) → after = []) : (run >>= f).Writes s (before ++ after) := by
  unfold Writes at *
  rcases hrun : run s with ⟨e | a, t⟩
  · rw [hrun] at h
    rw [bind_of_error hrun, herror e t hrun, List.append_nil]
    exact h
  · rw [hrun] at h
    rw [bind_of_ok hrun, hok a t hrun, h, List.append_assoc]

theorem Quiet.bind {run : Run α} {f : α → Run β} (h : run.Quiet) (hf : ∀ a, (f a).Quiet) :
    (run >>= f).Quiet :=
  fun s => (h s).bind (fun a t _ => hf a t) fun _ _ _ => rfl

end Run

theorem Context.quiet_checkSome (context : Option Context) : (checkSome context).Quiet := by
  cases context with
  | none => exact Run.quiet_pure ()
  | some c =>
    have hexpired : c.expired.Quiet := by
      unfold expired
      split
      · exact Run.quiet_pure false
      · exact Run.quiet_readClock.bind fun _ => Run.quiet_ofExcept _
    show c.check.Quiet
    unfold check
    split
    · exact Run.quiet_fail _
    · refine hexpired.bind fun b => ?_
      cases b with
      | true => exact Run.quiet_fail _
      | false => exact Run.quiet_pure ()

namespace Resolver

variable {context : Option Context} {did : Value} {s t : Session}

/-- The identifier of a key for which the resolver of such identifiers gives a document, if it gives
one. -/
def resolved? (context : Option Context) (did : Value) (s : Session) : Option String :=
  (ofKeys.resolve context did s).1.toOption.bind fun document => document.id.text?

theorem keyDocument_eq_ok {name : String} {document : Document} (h : keyDocument name = .ok document) :
    document.id = .text (DidKey.withoutFragment name) ∧
      ∃ key, DidKey.decode (DidKey.withoutFragment name) = .ok key := by
  obtain ⟨key, hkey, rfl⟩ := keyDocument_eq_ok_iff.mp h
  exact ⟨rfl, key, hkey⟩

theorem log_of_resolve_error {e : Error} (h : ofKeys.resolve context did s = (.error e, t)) :
    t.log = s.log := by
  have hcheck := Context.quiet_checkSome context s
  unfold Run.Writes at hcheck
  rw [List.append_nil] at hcheck
  unfold ofKeys at h
  simp only [Run.bind_eq_error_iff, Run.ofExcept_eq_iff] at h
  rcases h with h | ⟨_, u, hu, h⟩
  · rw [h] at hcheck
    exact hcheck
  rw [hu] at hcheck
  rcases h with ⟨-, rfl⟩ | ⟨_, _, ⟨-, rfl⟩, ⟨-, rfl⟩ | ⟨_, _, ⟨-, rfl⟩, h⟩⟩
  · exact hcheck
  · exact hcheck
  · rcases h with h | ⟨_, _, _, h⟩
    · cases h
    · cases h

theorem writes_ofKeys : (ofKeys.resolve context did).Writes s
    ((resolved? context did s).toList.map Event.resolved) := by
  unfold Run.Writes resolved?
  rcases hresolve : ofKeys.resolve context did s with ⟨e | document, t⟩
  · rw [log_of_resolve_error hresolve]
    exact (List.append_nil _).symm
  · obtain ⟨name, u, rfl, hdocument, hcheck, rfl⟩ := resolve_ofKeys_eq_ok_iff.mp hresolve
    have hlog := Context.quiet_checkSome context s
    rw [Run.Writes, hcheck, List.append_nil] at hlog
    show u.log ++ [_] = _
    rw [hlog, Except.toOption, Option.bind_some, (keyDocument_eq_ok hdocument).1]
    rfl

theorem exists_key_of_resolved? {name : String} (h : resolved? context did s = some name) :
    ∃ key, DidKey.decode name = .ok key := by
  obtain ⟨document, hdocument, hname⟩ := Option.bind_eq_some_iff.mp h
  obtain ⟨_, _, rfl, hkey, -⟩ :=
    resolve_ofKeys_eq_ok_iff.mp (Prod.ext (Except.toOption_eq_some_iff.mp hdocument) rfl)
  obtain ⟨hid, key, hdecode⟩ := keyDocument_eq_ok hkey
  rw [hid] at hname
  cases hname
  exact ⟨key, hdecode⟩

theorem resolved?_of_keyDocument {name : String} {document : Document}
    (h : keyDocument name = .ok document) (s : Session) :
    resolved? none (.text name) s = some (DidKey.withoutFragment name) := by
  have hresolve : ofKeys.resolve none (.text name) s = (.ok document, _) :=
    resolve_ofKeys_eq_ok_iff.mpr ⟨name, s, rfl, h, rfl, rfl⟩
  rw [resolved?, hresolve, Except.toOption, Option.bind_some, (keyDocument_eq_ok h).1]
  rfl

variable (context did s) in
theorem writes_ask : (ask (some ofKeys) context did).Writes s
    ((resolved? context did (s.noted did)).toList.map Event.resolved) :=
  writes_ofKeys (s := s.noted did)

theorem isSome_resolved?_of_ask {document : Document}
    (h : ask (some ofKeys) context did s = (.ok document, t)) :
    (resolved? context did (s.noted did)).isSome = true := by
  obtain ⟨_, ⟨⟩, u, hgives, -⟩ := ask_eq_ok_iff.mp h
  obtain ⟨name, -, -, hdocument, -⟩ := resolve_ofKeys_eq_ok_iff.mp hgives
  unfold resolved?
  rw [hgives, Except.toOption, Option.bind_some, (keyDocument_eq_ok hdocument).1]
  rfl

end Resolver

theorem Session.log_matched (s : Session) (verifier : Verifier) (names : List String) :
    (s.matched verifier names).log =
      s.log ++ if names.isEmpty then [] else [.audienceMatched verifier.id] := by
  unfold matched
  split
  · exact (List.append_nil s.log).symm
  · rfl

namespace Verify

variable {r : Jws.Registry} {context : Option Context} {s t : Session}

/-- The identifier that is resolved when a credential is verified, if one is. -/
def resolvedFor? (context : Option Context) (v : Value) (s : Session) : Option String :=
  (askedFor? v).bind fun did => Resolver.resolved? context did (s.noted did)

theorem writes_credentialToken (token : Value) (s : Session) :
    (credentialToken r context (some .ofKeys) token).Writes s
      ((resolvedFor? context token s).toList.map Event.resolved) := by
  unfold credentialToken resolvedFor? askedFor?
  cases readCredential token with
  | error e => exact Run.quiet_fail e s
  | ok read =>
    show Run.Writes (Run.ofExcept (.ok read) >>= _) s _
    unfold Run.Writes
    rw [Run.ofExcept_bind_ok]
    by_cases htruthy : read.credential.issuer.isTruthy = true
    · simp only [htruthy, Bool.not_true, Bool.false_eq_true, if_false, if_true, Option.bind_some]
      have hafter (document : Document) : Run.Quiet (do
          let method ← Run.ofExcept (chooseMethod document read.token.kid read.credential.issuer)
          let verifier ← Run.ofExcept (methodVerifier r read.credential.issuer method)
          Run.ofExcept (verifier.verify token) : Run Unit) :=
        (Run.quiet_ofExcept _).bind fun _ => (Run.quiet_ofExcept _).bind fun _ =>
          Run.quiet_ofExcept _
      have hask := (Resolver.writes_ask context read.credential.issuer s).bind
        (fun document t _ => hafter document t) fun _ _ _ => rfl
      rwa [List.append_nil] at hask
    · simp only [htruthy, Bool.not_false, if_true, Bool.false_eq_true, if_false, Option.bind_none]
      exact (List.append_nil s.log).symm

variable (r context) in
theorem writes_embedded (v : Value) (s : Session) :
    (embedded r context (some .ofKeys) v).Writes s
      ((resolvedFor? context v s).toList.map Event.resolved) := by
  cases v with
  | text token => exact writes_credentialToken (.text token) s
  | _ => exact Run.quiet_fail _ s

theorem exists_resolvedFor?_of_embedded {v : Value}
    (h : embedded r context (some .ofKeys) v s = (.ok (), t)) :
    ∃ did, resolvedFor? context v s = some did := by
  cases v with
  | text token =>
    obtain ⟨read, document, -, -, hread, htruthy, hask, -⟩ := credentialToken_eq_ok h
    have hasked : askedFor? (.text token) = some read.credential.issuer := by
      rw [askedFor?, hread]
      exact if_pos htruthy
    rw [resolvedFor?, hasked]
    exact Option.isSome_iff_exists.mp (Resolver.isSome_resolved?_of_ask hask)
  | _ => cases h

variable (r context) in
/-- What is resolved for each of the credentials that are started, from the one with the given index on:
the identifier of a key, or nothing. -/
def resolutions : (index : Nat) → List Value → Session → List (Option String)
  | _, [], _ => []
  | index, v :: rest, s =>
    let announced := s.logged (.verifyingCredential index)
    resolvedFor? context v announced ::
      match embedded r context (some .ofKeys) v announced with
      | (.ok (), t) => resolutions (index + 1) rest t
      | (.error _, _) => []

theorem resolutions_singleton (index : Nat) (v : Value) (s : Session) :
    resolutions r context index [v] s =
      [resolvedFor? context v (s.logged (.verifyingCredential index))] := by
  rw [resolutions]
  split <;> rfl

theorem exists_key_of_mem_resolutions {index : Nat} {items : List Value} {did : String}
    (h : some did ∈ resolutions r context index items s) : ∃ key, DidKey.decode did = .ok key := by
  induction items generalizing index s with
  | nil => cases h
  | cons v rest ih =>
    rw [resolutions] at h
    rcases List.mem_cons.mp h with hfirst | hrest
    · obtain ⟨_, -, hdid⟩ := Option.bind_eq_some_iff.mp hfirst.symm
      exact Resolver.exists_key_of_resolved? hdid
    · split at hrest
      · exact ih hrest
      · cases hrest

/-- The lines for credentials that are started one after the other. Only the last of them may fail, so
the identifiers that are resolved belong to the first ones. -/
def credentialLines : (index started : Nat) → (resolved : List String) → List Event
  | _, 0, _ => []
  | index, n + 1, did :: rest =>
    .verifyingCredential index :: .resolved did :: credentialLines (index + 1) n rest
  | index, n + 1, [] => .verifyingCredential index :: credentialLines (index + 1) n []

theorem writes_allEmbedded (index : Nat) (items : List Value) (s : Session) :
    (allEmbedded r context (some .ofKeys) index items).Writes s
      (credentialLines index (resolutions r context index items s).length
        ((resolutions r context index items s).filterMap id)) := by
  induction items generalizing index s with
  | nil => exact Run.quiet_pure () s
  | cons v rest ih =>
    have hv := writes_embedded r context v (s.logged (.verifyingCredential index))
    unfold Run.Writes at hv ⊢
    rw [resolutions]
    rcases hrun : embedded r context (some .ofKeys) v (s.logged (.verifyingCredential index)) with
      ⟨e | _, t⟩
    · rw [hrun] at hv
      rw [allEmbedded_cons_of_error hrun, hv]
      cases resolvedFor? context v (s.logged (.verifyingCredential index)) <;>
        simp [credentialLines, Session.logged]
    · obtain ⟨did, hdid⟩ := exists_resolvedFor?_of_embedded hrun
      rw [hrun, hdid] at hv
      rw [allEmbedded_cons_of_ok hrun, ih, hv, hdid]
      simp [credentialLines, Session.logged]

/-- How far the verification of a presentation comes: to the signature, to the reading of the token, to
its audience, or to its credentials, of which some are started. -/
inductive Reached where
  | signature
  | reading
  | audience
  | credentials (noAudience : Bool) (started : Nat) (resolved : List String)
deriving DecidableEq

/-- The lines for a verifier that comes so far. -/
def Reached.lines (id : Value) : Reached → List Event
  | signature => []
  | reading | audience => [.signatureVerified id]
  | credentials noAudience started resolved =>
    .signatureVerified id :: (if noAudience then [] else [.audienceMatched id]) ++
      credentialLines 0 started resolved

variable (r context) in
/-- How far a verification with the resolver of identifiers of keys comes. -/
def reached (verifier : Verifier) (token : Value) (s : Session) : Reached :=
  match verifier.verify token, readPresentation token with
  | .error _, _ => .signature
  | .ok (), .error _ => .reading
  | .ok (), .ok result =>
    match audience verifier result.token.audience (s.logged (.signatureVerified verifier.id)),
      result.presentation.credentials with
    | (.ok (), t), .list items =>
      let found := resolutions r context 0 items t
      .credentials result.token.audience.isEmpty found.length (found.filterMap id)
    | _, _ => .audience

theorem reached_of_alone {verifier : Verifier} {token v : Value} {result : ReadPresentation}
    {did : String} (hverify : verifier.verify token = .ok ())
    (hread : readPresentation token = .ok result) (haudience : result.token.audience = [])
    (hitems : result.presentation.credentials = .list [v])
    (hv : ∀ t, resolvedFor? context v t = some did) :
    reached r context verifier token s = .credentials true 1 [did] := by
  unfold reached
  rw [hverify, hread]
  simp only [haudience, audience_of_isMeant (.inl rfl), hitems, resolutions_singleton, hv]
  rfl

theorem exists_key_of_reached {verifier : Verifier} {token : Value} {noAudience : Bool} {started : Nat}
    {resolved : List String} {did : String}
    (h : reached r context verifier token s = .credentials noAudience started resolved)
    (hdid : did ∈ resolved) : ∃ key, DidKey.decode did = .ok key := by
  unfold reached at h
  split at h
  · cases h
  · cases h
  · split at h
    · cases h
      obtain ⟨_, hmem, rfl⟩ := List.mem_filterMap.mp hdid
      exact exists_key_of_mem_resolutions hmem
    · cases h

theorem writes_presentation (verifier : Verifier) (token : Value) (s : Session) :
    (presentation r context verifier (some .ofKeys) token).Writes s
      ((reached r context verifier token s).lines verifier.id) := by
  unfold Run.Writes reached
  cases hverify : verifier.verify token with
  | error e =>
    rw [presentation_of_verify_error hverify]
    exact (List.append_nil s.log).symm
  | ok _ =>
    cases hread : readPresentation token with
    | error e =>
      rw [presentation_of_unreadable hverify hread]
      rfl
    | ok result =>
      by_cases hmeant : verifier.IsMeant result.token.audience
      · obtain ⟨items, hitems⟩ :=
          Claims.toPresentation_credentials (readPresentation_eq_ok_iff.mp hread).2
        rw [presentation_of_isMeant hverify hread hmeant hitems]
        simp only [audience_of_isMeant hmeant, hitems]
        refine Eq.trans (Run.Writes.bind (writes_allEmbedded 0 items _)
          (fun _ t _ => Run.quiet_pure result t) fun _ _ _ => rfl) ?_
        rw [List.append_nil, Session.log_matched]
        simp [Reached.lines, Session.logged]
      · rw [presentation_of_not_isMeant hverify hread hmeant]
        simp only [audience_of_not_isMeant hmeant]
        rfl

theorem writes_credential (verifier : Verifier) (token : Value) (s : Session) :
    (credential verifier token).Writes s
      (if (verifier.verify token).isOk then [.signatureVerified verifier.id] else []) := by
  unfold Run.Writes credential
  cases hverify : verifier.verify token with
  | error e =>
    rw [Run.bind_of_error (signature_of_error hverify)]
    exact (List.append_nil s.log).symm
  | ok _ =>
    rw [Run.bind_of_ok (signature_of_ok hverify)]
    rfl

end Verify

/-- The algorithm in the header of the tokens of a signer, if it has a header. -/
def Signer.headerAlgorithm? (signer : Signer) (r : Jws.Registry) : Option Value :=
  (signer.header r).toOption.map fun header => Object.getD header "alg"

namespace Issue

variable {w : Surroundings} {signer : Signer} {s : Session}

theorem writes_credential {c : Credential} {claims : Claims}
    (hclaims : Claims.ofCredential w.nonce c = .ok claims) :
    (credential w signer c).Writes s
      ((signer.headerAlgorithm? w.registry).toList.map (.signingCredential signer.id)) := by
  unfold Run.Writes credential Signer.headerAlgorithm?
  rw [hclaims, Run.ofExcept_bind_ok]
  cases signer.header w.registry with
  | error e => exact (List.append_nil s.log).symm
  | ok header => rfl

theorem writes_presentation {terms : Option PresentationTerms} {p : Presentation} {claims : Claims}
    (hclaims : presentationClaims w signer terms p = .ok claims) :
    (presentation w signer terms p).Writes s
      (((signer.headerAlgorithm? w.registry).bind fun _ => p.credentials.size.toOption).toList.map
        (.signingPresentation signer.id)) := by
  unfold Run.Writes presentation Signer.headerAlgorithm?
  rw [hclaims, Run.ofExcept_bind_ok]
  cases signer.header w.registry with
  | error e => exact (List.append_nil s.log).symm
  | ok header =>
    rw [Run.ofExcept_bind_ok]
    cases p.credentials.size with
    | error e => exact (List.append_nil s.log).symm
    | ok n => rfl

end Issue

/-- Two runs from two sessions write the same. -/
def Run.WriteSame {α : Type} (run : Run α) (s : Session) (run' : Run α) (s' : Session) : Prop :=
  ∃ lines, run.Writes s lines ∧ run'.Writes s' lines

/-- What a log reveals. Of a credential that is signed it is the signer and the algorithm, and of a
presentation the number of its credentials too. Of a verification it is the verifier and how far it comes,
with the identifiers of keys that are resolved on the way, whatever the tokens, and whatever becomes of
them in the end. -/
theorem log_reveals_progress :
    (∀ (w w' : Surroundings) (signer signer' : Signer) (c c' : Credential) (s s' : Session),
      (Claims.ofCredential w.nonce c).isOk → (Claims.ofCredential w'.nonce c').isOk →
      signer.id = signer'.id →
      signer.headerAlgorithm? w.registry = signer'.headerAlgorithm? w'.registry →
      (Issue.credential w signer c).WriteSame s (Issue.credential w' signer' c') s') ∧
    (∀ (w w' : Surroundings) (signer signer' : Signer) (terms terms' : Option PresentationTerms)
        (p p' : Presentation) (s s' : Session),
      (Issue.presentationClaims w signer terms p).isOk →
      (Issue.presentationClaims w' signer' terms' p').isOk →
      signer.id = signer'.id →
      signer.headerAlgorithm? w.registry = signer'.headerAlgorithm? w'.registry →
      p.credentials.size.toOption = p'.credentials.size.toOption →
      (Issue.presentation w signer terms p).WriteSame s
        (Issue.presentation w' signer' terms' p') s') ∧
    (∀ (verifier verifier' : Verifier) (token token' : Value) (s s' : Session),
      verifier.id = verifier'.id →
      (verifier.verify token).isOk = (verifier'.verify token').isOk →
      (Verify.credential verifier token).WriteSame s (Verify.credential verifier' token') s') ∧
    (∀ (r r' : Jws.Registry) (context context' : Option Context) (verifier verifier' : Verifier)
        (token token' : Value) (s s' : Session),
      verifier.id = verifier'.id →
      Verify.reached r context verifier token s = Verify.reached r' context' verifier' token' s' →
      (Verify.presentation r context verifier (some .ofKeys) token).WriteSame s
        (Verify.presentation r' context' verifier' (some .ofKeys) token') s') ∧
    ∀ (r : Jws.Registry) (context : Option Context) (verifier : Verifier) (token : Value) (s : Session)
        (noAudience : Bool) (started : Nat) (resolved : List String),
      Verify.reached r context verifier token s = .credentials noAudience started resolved →
      ∀ did ∈ resolved, ∃ key, DidKey.decode did = .ok key := by
  refine ⟨?_, ?_, ?_, ?_, ?_⟩
  · intro w w' signer signer' c c' s s' hclaims hclaims' hid halgorithm
    obtain ⟨_, hclaims⟩ := Except.exists_of_isOk hclaims
    obtain ⟨_, hclaims'⟩ := Except.exists_of_isOk hclaims'
    refine ⟨_, Issue.writes_credential hclaims, ?_⟩
    rw [hid, halgorithm]
    exact Issue.writes_credential hclaims'
  · intro w w' signer signer' terms terms' p p' s s' hclaims hclaims' hid halgorithm hsize
    obtain ⟨_, hclaims⟩ := Except.exists_of_isOk hclaims
    obtain ⟨_, hclaims'⟩ := Except.exists_of_isOk hclaims'
    refine ⟨_, Issue.writes_presentation hclaims, ?_⟩
    rw [hid, halgorithm, hsize]
    exact Issue.writes_presentation hclaims'
  · intro verifier verifier' token token' s s' hid hverify
    refine ⟨_, Verify.writes_credential verifier token s, ?_⟩
    rw [hid, hverify]
    exact Verify.writes_credential verifier' token' s'
  · intro r r' context context' verifier verifier' token token' s s' hid hreached
    refine ⟨_, Verify.writes_presentation verifier token s, ?_⟩
    rw [hid, hreached]
    exact Verify.writes_presentation verifier' token' s'
  · intro r context verifier token s noAudience started resolved hreached did hdid
    exact Verify.exists_key_of_reached hreached hdid

namespace Verify

/-- The identifier of the key whose seed is zero. -/
def zeroDid : String := "did:key:z6MkiTBz1ymuepAQ4HEHYSF1H8quG5GLVVQR3djdX3mDooWp"

/-- The claims of a credential of this issuer about someone, which nobody signs. -/
def forgedClaims : Claims :=
  [("iss", .text zeroDid), ("sub", .text "b"), ("vc", .object [])]

/-- The claims of a presentation of it. -/
def forgedPresented : Claims :=
  [("iss", .text "b"),
    ("vp", .object [("verifiableCredential", .list [.text (ParsedToken.unsigned forgedClaims)])])]

theorem readPresentation_forgedPresented : ∃ p,
    readPresentation (.text (ParsedToken.unsigned forgedPresented)) =
      .ok ⟨⟨ParsedToken.unsigned forgedPresented, ParsedToken.unsignedHeader, forgedPresented⟩, p⟩ ∧
    p.credentials = .list [.text (ParsedToken.unsigned forgedClaims)] := by
  have hread : ParsedToken.ofText (ParsedToken.unsigned forgedPresented) = .ok _ :=
    ParsedToken.ofText_unsigned (by decide +kernel) rfl rfl (by decide +kernel)
  have hpresentation : Claims.toPresentation forgedPresented = .ok _ := rfl
  exact ⟨_, readPresentation_eq_ok_iff.mpr
    ⟨ParsedToken.ofValue_eq_ok_iff.mpr ⟨_, rfl, hread⟩, hpresentation⟩, rfl⟩

theorem askedFor?_forgedClaims :
    askedFor? (.text (ParsedToken.unsigned forgedClaims)) = some (.text zeroDid) := by
  have hread : ParsedToken.ofText (ParsedToken.unsigned forgedClaims) = .ok _ :=
    ParsedToken.ofText_unsigned (by decide +kernel) rfl rfl (by decide +kernel)
  obtain ⟨c, hcredential, hissuer⟩ : ∃ c, Claims.toCredential forgedClaims = .ok c ∧
      c.issuer = .text zeroDid := ⟨_, rfl, rfl⟩
  have hread : readCredential (.text (ParsedToken.unsigned forgedClaims)) =
      .ok ⟨⟨_, ParsedToken.unsignedHeader, forgedClaims⟩, c⟩ :=
    readCredential_eq_ok_iff.mpr
      ⟨ParsedToken.ofValue_eq_ok_iff.mpr ⟨_, rfl, hread⟩, hcredential⟩
  rw [askedFor?, hread]
  simp only [hissuer]
  rfl

theorem askedFor?_zeroCredentialToken :
    askedFor? (.text zeroCredentialToken) = some (.text zeroDid) := by
  obtain ⟨v, hv, htext⟩ : ∃ v, askedFor? (.text zeroCredentialToken) = some v ∧
      v.text? = some zeroDid := Option.bind_eq_some_iff.mp (by decide +kernel)
  cases v with
  | text s =>
    cases htext
    exact hv
  | _ => cases htext

theorem resolvedFor?_zeroDid {v : Value} (h : askedFor? v = some (.text zeroDid)) (s : Session) :
    resolvedFor? none v s = some zeroDid := by
  obtain ⟨document, hdocument⟩ : ∃ document, Resolver.keyDocument zeroDid = .ok document :=
    Except.exists_of_isOk (by decide +kernel)
  rw [resolvedFor?, h, Option.bind_some, Resolver.resolved?_of_keyDocument hdocument]
  decide +kernel

/-- The credential that was signed and the one that is forged are told apart by their signatures, which
is after the last line. -/
theorem reached_zeroPresented (s : Session) :
    reached [.edDsa] none (.accepting .null .null) (.text (ParsedToken.unsigned zeroPresented)) s =
      .credentials true 1 [zeroDid] := by
  obtain ⟨p, hread, hitems⟩ := readPresentation_zeroPresented
  exact reached_of_alone rfl hread rfl hitems (resolvedFor?_zeroDid askedFor?_zeroCredentialToken)

theorem reached_forgedPresented (s : Session) :
    reached [.edDsa] none (.accepting .null .null) (.text (ParsedToken.unsigned forgedPresented)) s =
      .credentials true 1 [zeroDid] := by
  obtain ⟨p, hread, hitems⟩ := readPresentation_forgedPresented
  exact reached_of_alone rfl hread rfl hitems (resolvedFor?_zeroDid askedFor?_forgedClaims)

/-- One who signs with the key whose seed is zero and one who refuses to sign write the same about
credentials and presentations with different contents, and a verifier writes the same about tokens that
are read or not, and about a presentation that passes and one of a credential that is forged. -/
theorem log_reveals_progress_zeroSigner :
    (Issue.credential ⟨[.edDsa], "n", .int 0⟩ Signer.zeroSigner
        { Credential.empty with id := .text "c" }).WriteSame .initial
      (Issue.credential ⟨[.edDsa], "m", .int 1⟩ (.refusing (.text "a") .null (.text "EdDSA") "no")
        { Credential.empty with issuer := .text "b" }) counting ∧
    (Issue.presentation ⟨[.edDsa], "n", .int 0⟩ Signer.zeroSigner none mixedPresentation).WriteSame
      .initial
      (Issue.presentation ⟨[.edDsa], "m", .int 1⟩
        (.refusing (.text "a") .null (.text "EdDSA") "no") (some ⟨.text "v", .int 5⟩)
        { Presentation.empty with credentials := .list [.text "y", .text "z"] }) counting ∧
    (credential (.accepting .null .null) (.text zeroToken)).WriteSame .initial
      (credential (.accepting .null .null) .null) counting ∧
    (presentation [.edDsa] none (.accepting .null .null) (some .ofKeys)
        (.text (ParsedToken.unsigned zeroPresented))).WriteSame .initial
      (presentation [.edDsa] none (.accepting .null .null) (some .ofKeys)
        (.text (ParsedToken.unsigned forgedPresented))) counting ∧
    ∃ key, DidKey.decode zeroDid = .ok key := by
  obtain ⟨hcredential, hpresentation, hverify, hpresented, hkeys⟩ := log_reveals_progress
  refine ⟨?_, ?_, ?_, ?_, ?_⟩
  · exact hcredential _ _ _ _ _ _ _ _ (by decide +kernel) (by decide +kernel) rfl rfl
  · exact hpresentation _ _ _ _ _ _ _ _ _ _ (by decide +kernel) (by decide +kernel) rfl rfl rfl
  · exact hverify _ _ _ _ _ _ rfl rfl
  · exact hpresented _ _ _ _ _ _ _ _ _ _ rfl
      ((reached_zeroPresented _).trans (reached_forgedPresented _).symm)
  · exact hkeys _ _ _ _ .initial _ _ _ (reached_zeroPresented _) _ (List.mem_singleton_self _)

end Verify

end Attest
