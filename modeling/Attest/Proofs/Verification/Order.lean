import Attest.Proofs.Claims.Reading
import Attest.Proofs.Verification.Stages

/-! The order in which a presentation is verified. The stages follow one another, the first one that
fails decides about the error, and a resolver is asked for the issuers of the credentials in their
order, up to the first credential that fails. -/

namespace Attest

/-- For whom a resolver is asked when a credential is verified: the issuer of a token that can be read
and has one. -/
def Verify.askedFor? (v : Value) : Option Value :=
  match readCredential v with
  | .ok read => if read.credential.issuer.isTruthy then some read.credential.issuer else none
  | .error _ => none

theorem Resolver.asked_ask (r : Resolver) (context : Option Context) (did : Value) (s : Session) :
    (ask (some r) context did s).2.asked = s.asked ++ [did] := rfl

namespace Run

variable {α β : Type}

theorem asked_ofExcept_bind {x : Except Error α} {f : α → Run β} {s : Session}
    (h : ∀ a, (f a s).2.asked = s.asked) : ((ofExcept x >>= f) s).2.asked = s.asked := by
  cases x with
  | ok a => exact h a
  | error e => rfl

end Run

namespace Verify

variable {r : Jws.Registry} {context : Option Context} {resolver : Resolver}

/-- Once a resolver has given a document, it is not asked again. -/
theorem asked_after {issuer kid token : Value} {document : Document} {s : Session} :
    ((do
      let method ← Run.ofExcept (chooseMethod document kid issuer)
      let verifier ← Run.ofExcept (methodVerifier r issuer method)
      Run.ofExcept (verifier.verify token) : Run Unit) s).2.asked = s.asked :=
  Run.asked_ofExcept_bind fun _ => Run.asked_ofExcept_bind fun _ => rfl

theorem asked_credentialToken (token : Value) (s : Session) :
    (credentialToken r context (some resolver) token s).2.asked =
      s.asked ++ (askedFor? token).toList := by
  unfold credentialToken askedFor?
  cases hread : readCredential token with
  | error e => simp
  | ok read =>
    rw [Run.ofExcept_bind_ok]
    by_cases htruthy : read.credential.issuer.isTruthy = true
    · simp only [htruthy, Bool.not_true, Bool.false_eq_true, if_false, if_true]
      rcases hask : Resolver.ask (some resolver) context read.credential.issuer s with ⟨x, t⟩
      have hasked : t.asked = s.asked ++ [read.credential.issuer] := by
        rw [← Resolver.asked_ask resolver context read.credential.issuer s, hask]
      cases x with
      | error e => rw [Run.bind_of_error hask, hasked, Option.toList_some]
      | ok document => rw [Run.bind_of_ok hask, asked_after, hasked, Option.toList_some]
    · simp only [htruthy, Bool.not_false, if_true, Bool.false_eq_true, if_false, Option.toList_none,
        List.append_nil]
      rfl

variable (r context resolver) in
theorem asked_embedded (v : Value) (s : Session) :
    (embedded r context (some resolver) v s).2.asked = s.asked ++ (askedFor? v).toList := by
  cases v with
  | text token => exact asked_credentialToken (.text token) s
  | _ => exact (List.append_nil s.asked).symm

theorem asked_of_embedded {v : Value} {e : Event} {s t : Session} {x : Except Error Unit}
    (h : embedded r context (some resolver) v (s.logged e) = (x, t)) :
    t.asked = s.asked ++ [v].filterMap askedFor? := by
  have hasked := asked_embedded r context resolver v (s.logged e)
  rw [h, Session.asked_logged] at hasked
  rw [hasked]
  cases hv : askedFor? v <;> simp [hv]

variable (r context resolver) in
/-- Credentials pass one after the other, from one session to another, the first one being announced
with the given index. -/
inductive AllPass : (index : Nat) → Session → List Value → Session → Prop
  | nil {index s} : AllPass index s [] s
  | cons {index s v t rest u}
      (hv : embedded r context (some resolver) v (s.logged (.verifyingCredential index)) =
        (.ok (), t))
      (hrest : AllPass (index + 1) t rest u) : AllPass index s (v :: rest) u

theorem allEmbedded_cons_of_ok {index : Nat} {v : Value} {rest : List Value} {s t : Session}
    (h : embedded r context (some resolver) v (s.logged (.verifyingCredential index)) =
      (.ok (), t)) :
    allEmbedded r context (some resolver) index (v :: rest) s =
      allEmbedded r context (some resolver) (index + 1) rest t := by
  rw [allEmbedded, Run.log_bind]
  apply Run.bind_of_ok
  rw [Run.mapError_apply, h]
  rfl

theorem allEmbedded_cons_of_error {index : Nat} {v : Value} {rest : List Value} {s t : Session}
    {e : Error}
    (h : embedded r context (some resolver) v (s.logged (.verifyingCredential index)) =
      (.error e, t)) :
    allEmbedded r context (some resolver) index (v :: rest) s = (.error (.embedded index e), t) := by
  rw [allEmbedded, Run.log_bind]
  apply Run.bind_of_error
  rw [Run.mapError_apply, h]
  rfl

/-- What follows credentials that pass is verified from the session that they leave. -/
theorem AllPass.allEmbedded_append {index : Nat} {s t : Session} {passed : List Value}
    (h : AllPass r context resolver index s passed t) (rest : List Value) :
    allEmbedded r context (some resolver) index (passed ++ rest) s =
      allEmbedded r context (some resolver) (index + passed.length) rest t := by
  induction h with
  | nil => rfl
  | cons hv _ ih =>
    rw [List.cons_append, allEmbedded_cons_of_ok hv, ih, List.length_cons]
    congr 1
    omega

theorem AllPass.asked {index : Nat} {s t : Session} {passed : List Value}
    (h : AllPass r context resolver index s passed t) :
    t.asked = s.asked ++ passed.filterMap askedFor? := by
  induction h with
  | nil => simp
  | @cons _ _ v _ rest _ hv _ ih =>
    rw [ih, asked_of_embedded hv, List.append_assoc, ← List.filterMap_append, List.singleton_append]

variable (r context resolver) in
/-- Either all credentials pass, or there is a first one that does not. -/
theorem allPass_or_first_failure (index : Nat) (items : List Value) (s : Session) :
    (∃ t, AllPass r context resolver index s items t) ∨
      ∃ passed v rest e t u, items = passed ++ v :: rest ∧
        AllPass r context resolver index s passed t ∧
        embedded r context (some resolver) v
          (t.logged (.verifyingCredential (index + passed.length))) = (.error e, u) := by
  induction items generalizing index s with
  | nil => exact .inl ⟨s, .nil⟩
  | cons v rest ih =>
    rcases hv : embedded r context (some resolver) v (s.logged (.verifyingCredential index)) with
      ⟨e | _, t⟩
    · exact .inr ⟨[], v, rest, e, s, t, rfl, .nil, hv⟩
    · rcases ih (index + 1) t with ⟨u, hpass⟩ | ⟨passed, w, tail, e, u, z, rfl, hpass, hfails⟩
      · exact .inl ⟨u, .cons hv hpass⟩
      · refine .inr ⟨v :: passed, w, tail, e, u, z, rfl, .cons hv hpass, ?_⟩
        rw [List.length_cons, ← Nat.add_assoc, Nat.add_right_comm]
        exact hfails

variable (r context) in
/-- How the verification of a presentation ends: at one of its stages, each of which is only reached
if those before it have passed. With it go the credentials that were tried, in order. -/
inductive Outcome (verifier : Verifier) (token : Value) (s : Session) :
    Option Resolver → (tried : List Value) → Except Error ReadPresentation → Session → Prop
  | noResolver : Outcome verifier token s none [] (.error (.precondition .resolverGiven)) s
  | badSignature {resolver e} (hverify : verifier.verify token = .error e) :
      Outcome verifier token s (some resolver) [] (.error (.outerSignature e)) s
  | unreadable {resolver e} (hverify : verifier.verify token = .ok ())
      (hread : readPresentation token = .error e) :
      Outcome verifier token s (some resolver) [] (.error e)
        (s.logged (.signatureVerified verifier.id))
  | notMeant {resolver result} (hverify : verifier.verify token = .ok ())
      (hread : readPresentation token = .ok result)
      (hmeant : ¬verifier.IsMeant result.token.audience) :
      Outcome verifier token s (some resolver) []
        (.error (.audienceMismatch verifier.id verifier.kid result.token.audience))
        (s.logged (.signatureVerified verifier.id))
  | credentialFails {resolver result passed v rest e t u}
      (hverify : verifier.verify token = .ok ()) (hread : readPresentation token = .ok result)
      (hmeant : verifier.IsMeant result.token.audience)
      (hitems : result.presentation.credentials = .list (passed ++ v :: rest))
      (hpassed : AllPass r context resolver 0
        ((s.logged (.signatureVerified verifier.id)).matched verifier result.token.audience) passed t)
      (hfails : embedded r context (some resolver) v
        (t.logged (.verifyingCredential passed.length)) = (.error e, u)) :
      Outcome verifier token s (some resolver) (passed ++ [v])
        (.error (.embedded passed.length e)) u
  | passes {resolver result items t}
      (hverify : verifier.verify token = .ok ()) (hread : readPresentation token = .ok result)
      (hmeant : verifier.IsMeant result.token.audience)
      (hitems : result.presentation.credentials = .list items)
      (hpassed : AllPass r context resolver 0
        ((s.logged (.signatureVerified verifier.id)).matched verifier result.token.audience) items t) :
      Outcome verifier token s (some resolver) items (.ok result) t

variable {verifier : Verifier} {token : Value} {s t : Session}

theorem Outcome.sound {resolver : Option Resolver} {tried : List Value}
    {x : Except Error ReadPresentation} (h : Outcome r context verifier token s resolver tried x t) :
    presentation r context verifier resolver token s = (x, t) := by
  cases h with
  | noResolver => exact presentation_none
  | badSignature hverify => exact presentation_of_verify_error hverify
  | unreadable hverify hread => exact presentation_of_unreadable hverify hread
  | notMeant hverify hread hmeant => exact presentation_of_not_isMeant hverify hread hmeant
  | credentialFails hverify hread hmeant hitems hpassed hfails =>
    rw [presentation_of_isMeant hverify hread hmeant hitems]
    apply Run.bind_of_error
    rw [hpassed.allEmbedded_append, Nat.zero_add]
    exact allEmbedded_cons_of_error hfails
  | passes hverify hread hmeant hitems hpassed =>
    rw [presentation_of_isMeant hverify hread hmeant hitems]
    have hall := hpassed.allEmbedded_append []
    rw [List.append_nil] at hall
    exact Run.bind_of_ok hall

theorem Outcome.asked {resolver : Option Resolver} {tried : List Value}
    {x : Except Error ReadPresentation} (h : Outcome r context verifier token s resolver tried x t) :
    t.asked = s.asked ++ tried.filterMap askedFor? := by
  cases h with
  | noResolver => simp
  | badSignature _ => simp
  | unreadable _ _ => simp
  | notMeant _ _ _ => simp
  | credentialFails _ _ _ _ hpassed hfails =>
    rw [asked_of_embedded hfails, hpassed.asked, Session.asked_matched, Session.asked_logged,
      List.append_assoc, List.filterMap_append]
  | passes _ _ _ _ hpassed => simpa using hpassed.asked

variable (r context) in
theorem Outcome.exists_outcome (verifier : Verifier) (token : Value) (s : Session)
    (resolver : Option Resolver) :
    ∃ tried x t, Outcome r context verifier token s resolver tried x t := by
  cases resolver with
  | none => exact ⟨_, _, _, .noResolver⟩
  | some res =>
    cases hverify : verifier.verify token with
    | error e => exact ⟨_, _, _, .badSignature hverify⟩
    | ok _ =>
      cases hread : readPresentation token with
      | error e => exact ⟨_, _, _, .unreadable hverify hread⟩
      | ok result =>
        by_cases hmeant : verifier.IsMeant result.token.audience
        · obtain ⟨items, hitems⟩ :=
            Claims.toPresentation_credentials (readPresentation_eq_ok_iff.mp hread).2
          rcases allPass_or_first_failure r context res 0 items
              ((s.logged (.signatureVerified verifier.id)).matched verifier result.token.audience)
            with ⟨t, hpassed⟩ | ⟨passed, v, rest, e, t, u, rfl, hpassed, hfails⟩
          · exact ⟨_, _, _, .passes hverify hread hmeant hitems hpassed⟩
          · rw [Nat.zero_add] at hfails
            exact ⟨_, _, _, .credentialFails hverify hread hmeant hitems hpassed hfails⟩
        · exact ⟨_, _, _, .notMeant hverify hread hmeant⟩

/-- The verification of a presentation ends exactly as its stages say, and asks a resolver exactly for
the issuers of the credentials that are tried. -/
theorem presentation_eq_iff_outcome {resolver : Option Resolver}
    {x : Except Error ReadPresentation} :
    presentation r context verifier resolver token s = (x, t) ↔
      ∃ tried, Outcome r context verifier token s resolver tried x t ∧
        t.asked = s.asked ++ tried.filterMap askedFor? := by
  constructor
  · intro h
    obtain ⟨tried, y, u, outcome⟩ := Outcome.exists_outcome r context verifier token s resolver
    rw [outcome.sound] at h
    obtain ⟨rfl, rfl⟩ := Prod.mk.inj h
    exact ⟨tried, outcome, outcome.asked⟩
  · rintro ⟨tried, outcome, -⟩
    exact outcome.sound

end Verify

end Attest
