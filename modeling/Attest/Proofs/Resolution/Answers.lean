import Attest.Proofs.Verification.Stages

/-! Resolvers that answer. They fail to resolve an identifier, or give a document in which the values
have the types that they should have; in such a document a method is looked up by any text. -/

namespace Attest

/-- The identifiers of the methods of a document are texts, and their keys are objects or missing. -/
structure Document.IsTyped (document : Document) : Prop where
  ids : ∀ m ∈ document.methods, m.id.isText = true
  keys : ∀ m ∈ document.methods, m.publicKeyJwk = .null ∨ ∃ o, m.publicKeyJwk = .object o

/-- A resolver that is asked for an identifier gives such a document, or it fails to resolve the
identifier. -/
structure Resolver.Answers (resolver : Resolver) (context : Option Context) (did : Value)
    (s : Session) : Prop where
  refusal : ∀ e t, resolver.resolve context did (s.noted did) = (.error e, t) →
    e.kind.isA .resolution = true
  typed : ∀ document t, resolver.resolve context did (s.noted did) = (.ok document, t) →
    document.IsTyped

namespace Document

theorem isMethod_eq_error_iff {id : Value} {m : VerificationMethod} (hm : m.id.isText = true) :
    (∃ f, isMethod id m = .error f) ↔ id.isText = false := by
  obtain ⟨t, ht⟩ := Value.exists_of_isText hm
  unfold isMethod
  rw [ht]
  cases id with
  | text s =>
    refine iff_of_false ?_ nofun
    rintro ⟨f, hf⟩
    split at hf
    · cases hf
    · change (if Text.beginsWith "#" s then Except.ok (Text.endsWith s t) else .ok false) = _ at hf
      split at hf <;> cases hf
  | _ =>
    refine iff_of_true ?_ rfl
    rw [if_neg (by rw [Value.same_text]; exact nofun)]
    exact ⟨_, rfl⟩

/-- Methods are looked up by any text, and by nothing else if there are any. -/
theorem findMethod_eq_error_iff {id : Value} {methods : List VerificationMethod}
    (hids : ∀ m ∈ methods, m.id.isText = true) :
    (∃ f, findMethod id methods = .error f) ↔ id.isText = false ∧ methods ≠ [] := by
  induction methods with
  | nil => exact iff_of_false (fun ⟨f, hf⟩ => nomatch hf) fun h => h.2 rfl
  | cons m rest ih =>
    have hm : (∃ f, isMethod id m = .error f) ↔ id.isText = false :=
      isMethod_eq_error_iff (hids m List.mem_cons_self)
    rw [findMethod]
    cases hmethod : isMethod id m with
    | error f =>
      exact iff_of_true ⟨f, rfl⟩ ⟨hm.mp ⟨f, hmethod⟩, List.cons_ne_nil m rest⟩
    | ok found =>
      have hid : ¬id.isText = false := by
        intro hid
        obtain ⟨f, hf⟩ := hm.mpr hid
        rw [hmethod] at hf
        cases hf
      refine iff_of_false ?_ fun h => hid h.1
      rintro ⟨f, hf⟩
      cases found with
      | true => cases hf
      | false => exact hid ((ih fun m hm => hids m (List.mem_cons_of_mem _ hm)).mp ⟨f, hf⟩).1

end Document

namespace Resolver

theorem ask_eq_error {resolver : Resolver} {context : Option Context} {did : Value} {s t : Session}
    {e : Error} (h : ask (some resolver) context did s = (.error e, t)) :
    ∃ u, resolver.resolve context did (s.noted did) = (.error e, u) :=
  ⟨_, Prod.ext (Prod.mk.inj h).1 rfl⟩

theorem resolve_ofTable_of_some {documents : List (String × Document)} {did : String}
    {document : Document} (h : List.lookup did documents = some document) (s : Session) :
    (ofTable documents).resolve none (.text did) s = (.ok document, s) := by
  have hfound : ((Value.text did).text?.bind fun s => List.lookup s documents) = some document := h
  unfold ofTable
  simp only [hfound]
  rfl

theorem resolve_ofTable_of_none {documents : List (String × Document)} {did : String}
    (h : List.lookup did documents = none) (s : Session) :
    (ofTable documents).resolve none (.text did) s = (.error (.resolution (.notFound did)), s) := by
  have hfound : ((Value.text did).text?.bind fun s => List.lookup s documents) = none := h
  unfold ofTable
  simp only [hfound]
  rfl

/-- A table of documents of this form answers for every text. -/
theorem answers_ofTable {documents : List (String × Document)}
    (h : ∀ d ∈ documents, d.2.IsTyped) (did : String) (s : Session) :
    (ofTable documents).Answers none (.text did) s := by
  cases hlookup : List.lookup did documents with
  | none =>
    have hresolve := resolve_ofTable_of_none hlookup (s.noted (.text did))
    constructor
    · intro e t herror
      obtain rfl := Except.error.inj (Prod.mk.inj (hresolve.symm.trans herror)).1
      rfl
    · intro document t hok
      cases hresolve.symm.trans hok
  | some found =>
    have hresolve := resolve_ofTable_of_some hlookup (s.noted (.text did))
    constructor
    · intro e t herror
      cases hresolve.symm.trans herror
    · intro document t hok
      obtain rfl := Except.ok.inj (Prod.mk.inj (hresolve.symm.trans hok)).1
      obtain ⟨before, after, rfl, -⟩ := List.lookup_eq_some_iff.mp hlookup
      exact h (did, found) (List.mem_append_right _ List.mem_cons_self)

end Resolver

end Attest
