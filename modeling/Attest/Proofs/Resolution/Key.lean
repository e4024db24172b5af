import Attest.Proofs.Key.Identifier
import Attest.Proofs.Verification.Embedded

/-! The resolver of identifiers that are keys: while a context is open it gives the document of the
key, whose only verification method is found by each of its names. -/

namespace Attest

namespace Context

/-- A context was not cancelled, and its deadline has not been reached. -/
def IsOpen (c : Context) (s : Session) : Prop :=
  c.cancelled = false ∧ ∃ t, c.expired s = (.ok false, t)

/-- The note of the identifiers that were asked for has no part in a deadline. -/
theorem expired_noted (c : Context) (s : Session) (did : Value) :
    c.expired (s.noted did) = ((c.expired s).1, (c.expired s).2.noted did) := by
  unfold expired
  split
  · rfl
  · have hclock : Run.readClock (s.noted did) =
        ((Run.readClock s).1, (Run.readClock s).2.noted did) := rfl
    rcases hread : Run.readClock s with ⟨e | now, t⟩
    · rw [hread] at hclock
      rw [Run.bind_of_error hread, Run.bind_of_error hclock]
    · rw [hread] at hclock
      rw [Run.bind_of_ok hread, Run.bind_of_ok hclock]
      rfl

theorem IsOpen.noted {c : Context} {s : Session} (h : c.IsOpen s) (did : Value) :
    c.IsOpen (s.noted did) := by
  obtain ⟨hcancelled, t, hexpired⟩ := h
  exact ⟨hcancelled, t.noted did, by rw [expired_noted, hexpired]⟩

theorem check_of_isOpen {c : Context} {s : Session} (h : c.IsOpen s) :
    ∃ t, c.check s = (.ok (), t) := by
  obtain ⟨hcancelled, t, hexpired⟩ := h
  refine ⟨t, ?_⟩
  unfold check
  rw [hcancelled, if_neg Bool.false_ne_true, Run.bind_of_ok hexpired]
  rfl

theorem checkSome_of_isOpen {context : Option Context} {s : Session}
    (h : ∀ c, context = some c → c.IsOpen s) : ∃ t, checkSome context s = (.ok (), t) := by
  cases context with
  | none => exact ⟨s, rfl⟩
  | some c => exact check_of_isOpen (h c rfl)

end Context

namespace Resolver

theorem keyDocument_encode (key : PublicKey) :
    keyDocument (DidKey.encode key) = .ok (key.document (DidKey.encode key)) := by
  have hscheme : Text.beginsWith DidKey.scheme (DidKey.encode key) = true :=
    Text.beginsWith_append _ _
  unfold keyDocument
  simp only [DidKey.withoutFragment_encode, hscheme, if_true, DidKey.decode_encode]

/-- After the check of the context, the document is made of the identifier, and this is logged. -/
theorem resolve_ofKeys_text {context : Option Context} {s t : Session}
    (h : Context.checkSome context s = (.ok (), t)) (did : String) :
    ofKeys.resolve context (.text did) s = (do
      let document ← Run.ofExcept (keyDocument did)
      Run.log (.resolved (DidKey.withoutFragment did))
      return document : Run Document) t := by
  refine (Run.bind_of_ok h).trans ?_
  show (Run.ofExcept (.ok _) >>= fun _ => _) t = _
  rw [Run.ofExcept_bind_ok]

/-- The resolver of identifiers that are keys gives the document of a key while a context is open. -/
theorem ask_ofKeys {context : Option Context} {s : Session}
    (h : ∀ c, context = some c → c.IsOpen s) (key : PublicKey) :
    ∃ t, ask (some ofKeys) context (.text (DidKey.encode key)) s =
      (.ok (key.document (DidKey.encode key)), t) := by
  obtain ⟨t, ht⟩ := Context.checkSome_of_isOpen fun c hc =>
    (h c hc).noted (.text (DidKey.encode key))
  have hresolve : ofKeys.resolve context (.text (DidKey.encode key))
      (s.noted (.text (DidKey.encode key))) =
        (.ok (key.document (DidKey.encode key)),
          t.logged (.resolved (DidKey.withoutFragment (DidKey.encode key)))) := by
    rw [resolve_ofKeys_text ht, keyDocument_encode, Run.ofExcept_bind_ok, Run.log_bind]
    rfl
  exact ⟨_, ask_eq_ok_iff.mpr ⟨_, rfl, _, hresolve, rfl⟩⟩

end Resolver

/-- The only verification method in the document of a key. -/
def PublicKey.method (key : PublicKey) (did : String) : VerificationMethod :=
  ⟨.text (DidKey.verificationMethod did), .text "JsonWebKey2020", .text did, .object key.toJwk⟩

namespace Document

theorem findMethod_of_isMethod {id : Value} {m : VerificationMethod} (h : isMethod id m = .ok true)
    (rest : List VerificationMethod) : findMethod id (m :: rest) = .ok (some m) := by
  rw [findMethod, h]

theorem isMethod_verificationMethod (key : PublicKey) (did : String) :
    isMethod (.text (DidKey.verificationMethod did)) (key.method did) = .ok true :=
  if_pos (Value.same_text.mpr rfl)

theorem isMethod_fragment (key : PublicKey) :
    isMethod (.text (DidKey.fragment key)) (key.method (DidKey.encode key)) = .ok true := by
  have hbegins : Text.beginsWith "#" (DidKey.fragment key) = true := Text.beginsWith_append _ _
  have hends : Text.endsWith (DidKey.fragment key)
      (DidKey.verificationMethod (DidKey.encode key)) = true := by
    rw [DidKey.verificationMethod_encode]
    exact Text.endsWith_append _ _
  unfold isMethod
  split
  · rfl
  · show (if Text.beginsWith "#" (DidKey.fragment key) = true then
      Except.ok (Text.endsWith _ (DidKey.verificationMethod _)) else _) = _
    rw [if_pos hbegins, hends]

/-- The method is chosen by no name, by its name, and by the part of it that names the key. -/
theorem chooses_method (key : PublicKey) {kid : Value} (h : kid.isTruthy = false ∨
    kid = .text (DidKey.verificationMethod (DidKey.encode key)) ∨ kid = .text (DidKey.fragment key)) :
    (key.document (DidKey.encode key)).Chooses kid (key.method (DidKey.encode key)) := by
  cases hkid : kid.isTruthy with
  | false => exact .first hkid rfl
  | true =>
    rcases h with hfalse | rfl | rfl
    · rw [hkid] at hfalse
      cases hfalse
    · exact .named hkid (findMethod_of_isMethod (isMethod_verificationMethod _ _) _)
    · exact .named hkid (findMethod_of_isMethod (isMethod_fragment key) _)

end Document

end Attest
