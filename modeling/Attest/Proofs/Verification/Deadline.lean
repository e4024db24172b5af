import Attest.Proofs.Resolution.Finished
import Attest.Proofs.Verification.KeyIssuer
import Attest.Proofs.Verification.Order

/-! Presentations that are verified with a context. While a credential is resolved the context is
neither cancelled nor at its deadline, and with a context that is finished no credential passes. -/

namespace Attest

/-- A context was not cancelled, and the time that the clock shows next is before its deadline, if
it has one; or its deadline is not a number, which no time reaches. -/
structure Context.Allows (c : Context) (s : Session) : Prop where
  cancelled : c.cancelled = false
  deadline : c.deadline = .null ∨ ∃ x y, s.clock.reading s.clock.reads = .ok x ∧
    c.deadline.asNumber? = some y ∧ (x.IsBefore y ∨ y = .float .nan)

theorem Context.Checked.allows {c : Context} {s t : Session} (h : c.Checked s (.ok ()) t)
    (hclock : s.clock.NeverGoesBack) : c.Allows s := by
  cases h with
  | unlimited hcancelled hdeadline => exact ⟨hcancelled, .inl hdeadline⟩
  | before hcancelled hnow hdeadline hreached =>
    obtain ⟨x, _, hx, _, hle⟩ := hclock s.clock.reads s.clock.reads (Nat.le_refl _)
    obtain rfl := Except.ok.inj (hnow.symm.trans hx)
    exact ⟨hcancelled, .inr ⟨_, _, hnow, hdeadline,
      Number.isBefore_or_eq_nan (Number.ne_nan_of_le hle).1 hreached⟩⟩

theorem Context.isOpen_of_reading {c : Context} {s : Session} {x y : Number}
    (hcancelled : c.cancelled = false) (hx : s.clock.reading s.clock.reads = .ok x)
    (hy : c.deadline.asNumber? = some y) (hreached : y.le x = false) : c.IsOpen s :=
  ⟨hcancelled, s.ticked, hreached ▸ expired_of_reading hx hy⟩

namespace Resolver

variable {c : Context} {s t : Session} {issuer : Value} {document : Document}

/-- A document is given for an identifier that is a key only if the context passes its check, and
after that the clock is not read again. -/
theorem exists_checked_of_gives (hnumeric : c.IsNumeric) (hclock : s.clock.NeverGoesBack)
    (h : ofKeys.Gives (some c) issuer s document t) :
    ∃ u, c.Checked (s.noted issuer) (.ok ()) u ∧ u.Leads t := by
  obtain ⟨after, hresolve, rfl⟩ := h
  obtain ⟨x, u, hcheck, hchecked⟩ :=
    Context.exists_checked (s := s.noted issuer) hnumeric hclock
  cases x with
  | error e =>
    rw [resolve_of_check_error hcheck] at hresolve
    cases hresolve
  | ok =>
    obtain ⟨_, _, hresolved, hleads, -⟩ := resolve_of_check_ok hcheck issuer
    obtain ⟨-, rfl⟩ := Prod.mk.inj (hresolve.symm.trans hresolved)
    exact ⟨u, hchecked, hleads.reading, hleads.reads⟩

end Resolver

namespace Verify

variable {r : Jws.Registry} {c : Context} {s t : Session}

theorem allows_of_embedded_eq_ok {v : Value} (hnumeric : c.IsNumeric)
    (hclock : s.clock.NeverGoesBack)
    (h : embedded r (some c) (some .ofKeys) v s = (.ok (), t)) : c.Allows s ∧ s.Leads t := by
  obtain ⟨_, parsed, issuer, document, m, key, ⟨⟩, -, vouched⟩ := embedded_sound h
  obtain ⟨u, hchecked, hleads⟩ :=
    Resolver.exists_checked_of_gives hnumeric hclock vouched.gives
  obtain ⟨hcancelled, hdeadline⟩ := hchecked.allows hclock
  have hnoted : (s.noted issuer).Leads t := hchecked.leads.trans hleads
  exact ⟨⟨hcancelled, hdeadline⟩, hnoted.reading, hnoted.reads⟩

theorem AllPass.leads {index : Nat} {items : List Value}
    (h : AllPass r (some c) .ofKeys index s items t) (hnumeric : c.IsNumeric)
    (hclock : s.clock.NeverGoesBack) : s.Leads t := by
  induction h with
  | nil => exact .refl _
  | @cons index s v t rest u hv _ ih =>
    have hstep := (allows_of_embedded_eq_ok (s := s.logged (.verifyingCredential index)) hnumeric
      hclock hv).2
    have hleads := (s.leads_logged (.verifyingCredential index)).trans hstep
    exact hleads.trans (ih (hleads.neverGoesBack hclock))

/-- Of credentials that pass, each one does so in the session that those before it leave. -/
theorem AllPass.split {context : Option Context} {resolver : Resolver} {index : Nat}
    {passed rest : List Value} {v : Value}
    (h : AllPass r context resolver index s (passed ++ v :: rest) t) :
    ∃ before after, AllPass r context resolver index s passed before ∧
      embedded r context (some resolver) v
        (before.logged (.verifyingCredential (index + passed.length))) = (.ok (), after) := by
  induction passed generalizing index s with
  | nil =>
    cases h with
    | cons hv _ => exact ⟨s, _, .nil, hv⟩
  | cons first more ih =>
    cases h with
    | cons hfirst hrest =>
      obtain ⟨before, after, hpassed, hv⟩ := ih hrest
      refine ⟨before, after, .cons hfirst hpassed, ?_⟩
      rw [List.length_cons, ← Nat.add_assoc, Nat.add_right_comm]
      exact hv

theorem embedded_of_isFinished (hnumeric : c.IsNumeric) (hclock : s.clock.NeverGoesBack)
    (hfinished : c.IsFinished s) (r : Jws.Registry) (v : Value) :
    ∃ e t, embedded r (some c) (some .ofKeys) v s = (.error e, t) := by
  rcases hv : embedded r (some c) (some .ofKeys) v s with ⟨e | _, t⟩
  · exact ⟨e, t, rfl⟩
  · obtain ⟨_, parsed, issuer, document, m, key, ⟨⟩, -, vouched⟩ := embedded_sound hv
    obtain ⟨u, hchecked, -⟩ := Resolver.exists_checked_of_gives hnumeric hclock vouched.gives
    have hnoted : c.IsFinished (s.noted issuer) := hfinished
    obtain ⟨_, ⟨⟩, -⟩ := hnoted.exists_error hclock hchecked

/-- The session in which the first credential of a presentation is verified. -/
def atCredentials (verifier : Verifier) (result : ReadPresentation) (s : Session) : Session :=
  (s.logged (.signatureVerified verifier.id)).matched verifier result.token.audience

theorem leads_atCredentials (verifier : Verifier) (result : ReadPresentation) (s : Session) :
    s.Leads (atCredentials verifier result s) := by
  unfold atCredentials Session.matched
  split
  · exact s.leads_logged _
  · exact (s.leads_logged _).trans (Session.leads_logged _ _)

/-- A credential of a presentation is resolved in a session: the ones before it have passed, and in
this session the resolver of identifiers that are keys vouches for it. -/
structure ResolvedIn (r : Jws.Registry) (c : Context) (s : Session) (passed : List Value)
    (v : Value) (now : Session) : Prop where
  after : ∃ before, AllPass r (some c) .ofKeys 0 s passed before ∧
    now = before.logged (.verifyingCredential passed.length)
  vouched : ∃ after parsed issuer document m key, v = .text parsed.raw ∧
    Vouched r (some c) .ofKeys now after parsed issuer document m key

theorem exists_resolvedIn {verifier : Verifier} {token : Value} {result : ReadPresentation}
    (hnumeric : c.IsNumeric) (hclock : s.clock.NeverGoesBack)
    (h : presentation r (some c) verifier (some .ofKeys) token s = (.ok result, t))
    {passed rest : List Value} {v : Value}
    (hitems : result.presentation.credentials = .list (passed ++ v :: rest)) :
    ∃ now, ResolvedIn r c (atCredentials verifier result s) passed v now ∧ c.Allows now := by
  obtain ⟨tried, outcome, -⟩ := presentation_eq_iff_outcome.mp h
  cases outcome with
  | passes hverify hread hmeant hlist hpassed =>
    obtain rfl := Value.list.inj (hlist.symm.trans hitems)
    obtain ⟨before, after, hbefore, hv⟩ := hpassed.split
    rw [Nat.zero_add] at hv
    have hstart := (leads_atCredentials verifier result s).neverGoesBack hclock
    have hnow : (before.logged (.verifyingCredential passed.length)).clock.NeverGoesBack :=
      (hbefore.leads hnumeric hstart).neverGoesBack hstart
    obtain ⟨_, parsed, issuer, document, m, key, ⟨⟩, htext, vouched⟩ := embedded_sound hv
    exact ⟨_, ⟨⟨before, hbefore, rfl⟩, after, parsed, issuer, document, m, key, htext, vouched⟩,
      (allows_of_embedded_eq_ok hnumeric hnow hv).1⟩

/-- The first credential of a presentation fails with a context that is finished. -/
theorem presentation_of_isFinished {verifier : Verifier} {token v : Value} {rest : List Value}
    {result : ReadPresentation} (hnumeric : c.IsNumeric) (hclock : s.clock.NeverGoesBack)
    (hfinished : c.IsFinished s) (hverify : verifier.verify token = .ok ())
    (hread : readPresentation token = .ok result)
    (hmeant : verifier.IsMeant result.token.audience)
    (hitems : result.presentation.credentials = .list (v :: rest)) :
    ∃ e t, presentation r (some c) verifier (some .ofKeys) token s =
      (.error (.embedded 0 e), t) := by
  have hleads := (leads_atCredentials verifier result s).trans
    (Session.leads_logged _ (.verifyingCredential 0))
  obtain ⟨e, t, hfails⟩ := embedded_of_isFinished hnumeric (hleads.neverGoesBack hclock)
    (hfinished.leads hleads) r v
  have hfirst : result.presentation.credentials = .list ([] ++ v :: rest) := hitems
  exact ⟨e, t, (Outcome.credentialFails hverify hread hmeant hfirst .nil hfails).sound⟩

/-- Once a use of a context has failed because of the context, all later ones do. A presentation
that is verified with a context had each of its credentials resolved while the context was neither
cancelled nor at its deadline, and with a context that is finished its first credential fails. -/
theorem finished_context_stops (hnumeric : c.IsNumeric) (hclock : s.clock.NeverGoesBack) :
    (∀ uses, (Use.history c s uses).map Prod.fst = uses ∧
      (Use.history c s uses).Pairwise fun earlier later => Use.FailedOfContext earlier.2 →
        later.1 ≠ .cancel → ∃ e, later.2 = some e ∧ e.IsOfContext ∧ e.kind = .resolution) ∧
    (∀ r verifier token result t,
      presentation r (some c) verifier (some .ofKeys) token s = (.ok result, t) →
      ∀ passed v rest, result.presentation.credentials = .list (passed ++ v :: rest) →
        ∃ now, ResolvedIn r c (atCredentials verifier result s) passed v now ∧ c.Allows now) ∧
    (c.IsFinished s → ∀ (r : Jws.Registry) verifier token result v rest,
      verifier.verify token = .ok () → readPresentation token = .ok result →
      verifier.IsMeant result.token.audience →
      result.presentation.credentials = .list (v :: rest) →
      ∃ e t, presentation r (some c) verifier (some .ofKeys) token s =
        (.error (.embedded 0 e), t)) := by
  refine ⟨fun uses => ⟨Use.fst_history c s uses, ?_⟩, ?_, ?_⟩
  · refine (Use.pairwise_history hnumeric hclock uses).imp fun h hfailed huse => ?_
    obtain ⟨e, he, hof⟩ := h hfailed huse
    exact ⟨e, he, hof, hof.kind⟩
  · intro r verifier token result t h passed v rest hitems
    exact exists_resolvedIn hnumeric hclock h hitems
  · intro hfinished r verifier token result v rest hverify hread hmeant hitems
    exact presentation_of_isFinished hnumeric hclock hfinished hverify hread hmeant hitems

/-- A credential that passes without a context passes with every context that is open. -/
theorem embedded_of_isOpen {v : Value} {s' : Session}
    (h : embedded r none (some .ofKeys) v s = (.ok (), t)) (hopen : c.IsOpen s') :
    ∃ t', embedded r (some c) (some .ofKeys) v s' = (.ok (), t') := by
  cases v with
  | text token =>
    obtain ⟨read, document, m, verifier, hread, htruthy, hask, hm, hverifier, hverify⟩ :=
      credentialToken_eq_ok h
    obtain ⟨_, ⟨⟩, _, hresolve, -⟩ := Resolver.ask_eq_ok_iff.mp hask
    obtain ⟨name, _, hname, hdocument, -, -⟩ := Resolver.resolve_ofKeys_eq_ok_iff.mp hresolve
    obtain ⟨u, hcheck⟩ := Context.check_of_isOpen (hopen.noted read.credential.issuer)
    have hresolve' : Resolver.ofKeys.resolve (some c) read.credential.issuer
        (s'.noted read.credential.issuer) = (.ok document, _) :=
      Resolver.resolve_ofKeys_eq_ok_iff.mpr ⟨name, u, hname, hdocument, hcheck, rfl⟩
    exact ⟨_, credentialToken_of_stages hread htruthy
      (Resolver.ask_eq_ok_iff.mpr ⟨_, rfl, _, hresolve', rfl⟩) hm hverifier hverify⟩
  | _ => cases h

/-- The token of a credential whose issuer is the identifier of the key whose seed is zero. -/
def zeroCredentialToken : String :=
  "eyJhbGciOiJFZERTQSJ9." ++
    "eyJpc3MiOiJkaWQ6a2V5Ono2TWtpVEJ6MXltdWVwQVE0SEVIWVNGMUg4cXVHNUdMVlZRUjNkamRYM21Eb29XcCIs" ++
    "InZjIjp7fX0." ++
    "xNswfFetctCwiWt28V06CE5fZQN5wZjrz5vJTa7yJMBFUocVodqUXV40DveM8cdG7AHTaVXZiBPZm8H5IiZuBA"

theorem embedded_zeroCredentialToken :
    ∃ t, embedded [.edDsa] none (some .ofKeys) (.text zeroCredentialToken) .initial =
      (.ok (), t) := by
  obtain ⟨_, t, h⟩ : ∃ x t, embedded [.edDsa] none (some .ofKeys) (.text zeroCredentialToken)
      .initial = (.ok x, t) := Run.exists_of_isOk (by decide +kernel)
  exact ⟨t, h⟩

/-- The claims of a presentation of this credential. -/
def zeroPresented : Claims :=
  [("iss", .text "a"),
    ("vp", .object [("verifiableCredential", .list [.text zeroCredentialToken])])]

theorem readPresentation_zeroPresented : ∃ p,
    readPresentation (.text (ParsedToken.unsigned zeroPresented)) =
      .ok ⟨⟨ParsedToken.unsigned zeroPresented, ParsedToken.unsignedHeader, zeroPresented⟩, p⟩ ∧
    p.credentials = .list [.text zeroCredentialToken] := by
  have hread : ParsedToken.ofText (ParsedToken.unsigned zeroPresented) = .ok _ :=
    ParsedToken.ofText_unsigned (by decide +kernel) rfl rfl (by decide +kernel)
  have hpresentation : Claims.toPresentation zeroPresented = .ok _ := rfl
  exact ⟨_, readPresentation_eq_ok_iff.mpr
    ⟨ParsedToken.ofValue_eq_ok_iff.mpr ⟨_, rfl, hread⟩, hpresentation⟩, rfl⟩

/-- The presentation is verified by whoever accepts its token, with every context that is open. -/
theorem presentation_zeroPresented {x y : Number} (hcancelled : c.cancelled = false)
    (hx : s.clock.reading s.clock.reads = .ok x) (hy : c.deadline.asNumber? = some y)
    (hreached : y.le x = false) :
    ∃ result t, presentation [.edDsa] (some c) (.accepting .null .null) (some .ofKeys)
        (.text (ParsedToken.unsigned zeroPresented)) s = (.ok result, t) ∧
      result.presentation.credentials = .list [.text zeroCredentialToken] := by
  obtain ⟨p, hread, hitems⟩ := readPresentation_zeroPresented
  have hmeant : (Verifier.accepting .null .null).IsMeant (Claims.audience zeroPresented) := .inl rfl
  have hopen : c.IsOpen (((s.logged (.signatureVerified .null)).matched (.accepting .null .null)
      (Claims.audience zeroPresented)).logged (.verifyingCredential 0)) :=
    Context.isOpen_of_reading hcancelled hx hy hreached
  obtain ⟨_, hembedded⟩ := embedded_zeroCredentialToken
  obtain ⟨_, hpasses⟩ := embedded_of_isOpen hembedded hopen
  exact ⟨_, _, (Outcome.passes rfl hread hmeant hitems (.cons hpasses .nil)).sound, hitems⟩

/-- A session with a clock that shows how often it was read before. -/
def counting : Session := ⟨⟨fun n => .ok (.int n), 0⟩, [], []⟩

theorem neverGoesBack_counting : counting.clock.NeverGoesBack := by
  intro m n hmn
  refine ⟨_, _, rfl, rfl, ?_⟩
  rw [Number.int_le_int, decide_eq_true_eq]
  exact Int.ofNat_le.mpr hmn

/-- A session with a clock that stands at zero. -/
def standing : Session := ⟨⟨fun _ => .ok (.float (.ofUnits false 0)), 0⟩, [], []⟩

theorem neverGoesBack_standing : standing.clock.NeverGoesBack := fun _ _ _ =>
  ⟨_, _, rfl, rfl, Number.le_eq_true_iff.mpr ⟨nofun, nofun, .inr ⟨rfl, Int.le_refl _⟩⟩⟩

/-- A context that is started for two units of time is finished after it was checked twice. Before
that the presentation is verified with it, and not any more after it was cancelled. -/
theorem finished_context_stops_counting :
    ∃ c s, Context.start (.int 2) .null counting = (.ok c, s) ∧
      (∃ e, (Use.history c s [.check, .check, .resolve (.text "x")]).map Prod.snd =
        [none, some (.resolution .deadlineExceeded), some e] ∧ e.kind = .resolution) ∧
      (∃ result t, presentation [.edDsa] (some c) (.accepting .null .null) (some .ofKeys)
          (.text (ParsedToken.unsigned zeroPresented)) s = (.ok result, t) ∧
        ∃ now, ResolvedIn [.edDsa] c (atCredentials (.accepting .null .null) result s) []
          (.text zeroCredentialToken) now ∧ c.Allows now) ∧
      ∃ e t, presentation [.edDsa] (some c.cancel) (.accepting .null .null) (some .ofKeys)
        (.text (ParsedToken.unsigned zeroPresented)) s = (.error (.embedded 0 e), t) := by
  have hstart : Context.start (.int 2) .null counting =
      (.ok ⟨.int 2, false⟩, counting.ticked) := rfl
  have hnumeric := Context.isNumeric_of_start (.inl rfl) hstart
  have hclock := counting.leads_ticked.neverGoesBack neverGoesBack_counting
  obtain ⟨huses, hverified, -⟩ := finished_context_stops hnumeric hclock
  obtain ⟨-, -, hfinished⟩ :=
    finished_context_stops (c := (⟨.int 2, false⟩ : Context).cancel) hnumeric hclock
  have hbefore : (Number.int 2).le (.int 1) = false := Number.int_le_int 2 1
  have hreached : (Number.int 2).le (.int 2) = true := Number.int_le_int 2 2
  have hfirst : Context.expired ⟨.int 2, false⟩ counting.ticked =
      (.ok false, counting.ticked.ticked) :=
    hbefore ▸ Context.expired_of_reading (x := .int 1) rfl rfl
  have hsecond : Context.expired ⟨.int 2, false⟩ counting.ticked.ticked =
      (.ok true, counting.ticked.ticked.ticked) :=
    hreached ▸ Context.expired_of_reading (x := .int 2) rfl rfl
  refine ⟨_, _, hstart, ?_, ?_, ?_⟩
  · obtain ⟨-, hpairs⟩ := huses [.check, .check, .resolve (.text "x")]
    simp only [Use.history, Use.perform, Context.check_of_expired rfl hfirst,
      Context.check_of_expired rfl hsecond, Bool.false_eq_true, if_false, if_true] at hpairs ⊢
    obtain ⟨-, hrest⟩ := List.pairwise_cons.mp hpairs
    obtain ⟨hlater, -⟩ := List.pairwise_cons.mp hrest
    obtain ⟨e, he, -, hkind⟩ := hlater _ List.mem_cons_self ⟨_, rfl, .inr rfl⟩ (by rintro ⟨⟩)
    exact ⟨e, congrArg (fun last => [none, some (Error.resolution .deadlineExceeded), last]) he,
      hkind⟩
  · obtain ⟨result, t, hpresentation, hitems⟩ := presentation_zeroPresented
      (c := ⟨.int 2, false⟩) (s := counting.ticked) rfl rfl rfl hbefore
    exact ⟨result, t, hpresentation, hverified _ _ _ _ _ hpresentation [] _ [] hitems⟩
  · obtain ⟨p, hread, hitems⟩ := readPresentation_zeroPresented
    have hmeant : (Verifier.accepting .null .null).IsMeant (Claims.audience zeroPresented) :=
      .inl rfl
    exact hfinished (.inl rfl) _ _ _ _ _ _ rfl hread hmeant hitems

/-- A context that is started for a time that is no number is never finished by its deadline: the
presentation is verified with it, although no time is before the deadline. -/
theorem verified_at_nan :
    ∃ c s result t, Context.start (.float .nan) .null standing = (.ok c, s) ∧ c.IsNumeric ∧
      s.clock.NeverGoesBack ∧
      presentation [.edDsa] (some c) (.accepting .null .null) (some .ofKeys)
        (.text (ParsedToken.unsigned zeroPresented)) s = (.ok result, t) ∧
      result.presentation.credentials = .list [.text zeroCredentialToken] ∧
      c.cancelled = false ∧ c.deadline = .float .nan ∧ ∀ x : Number, ¬x.IsBefore (.float .nan) := by
  have hstart : Context.start (.float .nan) .null standing =
      (.ok ⟨.float .nan, false⟩, standing.ticked) := rfl
  have hclock := standing.leads_ticked.neverGoesBack neverGoesBack_standing
  obtain ⟨result, t, hpresentation, hitems⟩ := presentation_zeroPresented
    (c := ⟨.float .nan, false⟩) (s := standing.ticked) rfl rfl rfl rfl
  exact ⟨_, _, result, t, hstart, Context.isNumeric_of_start (.inl rfl) hstart, hclock,
    hpresentation, hitems, rfl, rfl, fun x hx => (Number.ne_nan_of_le hx.1).2 rfl⟩

end Verify

end Attest
