import Attest.Proofs.Claims.Reading
import Attest.Proofs.Key.Loading
import Attest.Proofs.Token.Covered
import Attest.Proofs.Verification.Stages

/-! Credentials in a presentation: one that passes is a token, and the key that it was signed with
comes from the document that a resolver gave for its issuer. -/

namespace Attest

/-- A resolver that is asked for an identifier in a session gives a document, and leaves the session
with one more identifier in the note of those that were asked for. -/
def Resolver.Gives (resolver : Resolver) (context : Option Context) (did : Value) (s : Session)
    (document : Document) (t : Session) : Prop :=
  ∃ u, resolver.resolve context did (s.noted did) = (.ok document, u) ∧
    t = { u with asked := s.asked ++ [did] }

/-- A document has a method for tokens with a header that names a key, or that names none: the one
that is found by that name, or the first one. -/
inductive Document.Chooses (document : Document) (kid : Value) (m : VerificationMethod) : Prop
  | named (hkid : kid.isTruthy = true) (hfound : document.method? kid = .ok (some m))
  | first (hkid : kid.isTruthy = false) (hfirst : document.methods.head? = some m)

/-- A method holds a key: an object with members that stands for it. -/
def VerificationMethod.Holds (m : VerificationMethod) (key : PublicKey) : Prop :=
  ∃ jwk, m.publicKeyJwk = .object jwk ∧ jwk ≠ [] ∧ PublicKey.ofJwk (.object jwk) = .ok key

namespace Resolver

theorem ask_eq_ok_iff {resolver : Option Resolver} {context : Option Context} {did : Value}
    {s t : Session} {document : Document} :
    ask resolver context did s = (.ok document, t) ↔
      ∃ r, resolver = some r ∧ r.Gives context did s document t := by
  cases resolver with
  | none =>
    constructor
    · intro h
      cases h
    · rintro ⟨_, h, -⟩
      cases h
  | some r =>
    have hask : ask (some r) context did s =
        ((r.resolve context did (s.noted did)).1,
          { (r.resolve context did (s.noted did)).2 with asked := s.asked ++ [did] }) := rfl
    rw [hask]
    constructor
    · intro h
      obtain ⟨hresult, rfl⟩ := Prod.mk.inj h
      exact ⟨r, rfl, _, Prod.ext hresult rfl, rfl⟩
    · rintro ⟨_, ⟨⟩, u, hu, rfl⟩
      rw [hu]

end Resolver

namespace Document

theorem findMethod_mem {id : Value} {methods : List VerificationMethod} {m : VerificationMethod}
    (h : findMethod id methods = .ok (some m)) : m ∈ methods := by
  induction methods with
  | nil => cases h
  | cons first rest ih =>
    rw [findMethod] at h
    split at h
    · cases h
    · cases h
      exact List.mem_cons_self
    · exact List.mem_cons_of_mem _ (ih h)

theorem Chooses.mem {document : Document} {kid : Value} {m : VerificationMethod}
    (h : document.Chooses kid m) : m ∈ document.methods := by
  cases h with
  | named _ hfound => exact findMethod_mem hfound
  | first _ hfirst => exact List.mem_of_head? hfirst

end Document

namespace Verify

theorem chooseMethod_eq_ok_iff {document : Document} {kid issuer : Value}
    {m : VerificationMethod} :
    chooseMethod document kid issuer = .ok m ↔ document.Chooses kid m := by
  unfold chooseMethod
  by_cases hkid : kid.isTruthy = true
  · rw [if_pos hkid]
    constructor
    · intro h
      split at h
      · cases h
      · rename_i found hfound
        cases h
        exact .named hkid hfound
      · cases h
    · intro h
      cases h with
      | named _ hfound => rw [hfound]
      | first hnot => rw [hkid] at hnot; cases hnot
  · rw [if_neg hkid]
    constructor
    · intro h
      split at h
      · rename_i found rest hmethods
        cases h
        exact .first (by simpa using hkid) (by rw [hmethods, List.head?_cons])
      · cases h
    · intro h
      cases h with
      | named hyes => exact absurd hyes hkid
      | first _ hfirst =>
        obtain ⟨rest, hmethods⟩ := List.head?_eq_some_iff.mp hfirst
        rw [hmethods]

theorem methodVerifier_eq_ok {r : Jws.Registry} {issuer : Value} {m : VerificationMethod}
    {verifier : Verifier} (h : methodVerifier r issuer m = .ok verifier) :
    ∃ key, m.Holds key ∧ verifier = .ofKey r issuer (.key key) m.id := by
  unfold methodVerifier at h
  split at h
  · rename_i htruthy
    rw [Except.mapError_eq_ok_iff] at h
    obtain ⟨key, hkey, rfl⟩ := Verifier.ofJwk_eq_ok_iff.mp h
    refine ⟨key, ?_, rfl⟩
    obtain ⟨jwk, hjwk, -⟩ := PublicKey.ofJwk_eq_ok_iff.mp hkey
    rw [hjwk] at htruthy hkey
    refine ⟨jwk, hjwk, ?_, hkey⟩
    rintro rfl
    exact absurd htruthy (by decide)
  · cases h

variable {r : Jws.Registry} {context : Option Context} {resolver : Option Resolver} {s t : Session}

theorem credentialToken_eq_ok {token : Value}
    (h : credentialToken r context resolver token s = (.ok (), t)) :
    ∃ read document m verifier, readCredential token = .ok read ∧
      read.credential.issuer.isTruthy = true ∧
      Resolver.ask resolver context read.credential.issuer s = (.ok document, t) ∧
      chooseMethod document read.token.kid read.credential.issuer = .ok m ∧
      methodVerifier r read.credential.issuer m = .ok verifier ∧
      verifier.verify token = .ok () := by
  unfold credentialToken at h
  simp only [Run.bind_eq_ok_iff, Run.ofExcept_eq_ok_iff] at h
  obtain ⟨read, _, ⟨hread, rfl⟩, h⟩ := h
  split at h
  · obtain ⟨_, _, hfail, -⟩ := Run.bind_eq_ok_iff.mp h
    cases hfail
  · rename_i htruthy
    simp only [Run.bind_eq_ok_iff, Run.ofExcept_eq_ok_iff] at h
    obtain ⟨document, _, hask, m, _, ⟨hm, rfl⟩, verifier, _, ⟨hverifier, rfl⟩, hverify, rfl⟩ := h
    exact ⟨read, document, m, verifier, hread, by simpa using htruthy, hask, hm, hverifier, hverify⟩

/-- A token passes as a credential, for the issuer that it names. The resolver is asked for this
issuer and for nobody else, the document that it gives has a method for the header of the token, this
method holds a key, and all that is read from the token is signed under this key. -/
structure Vouched (r : Jws.Registry) (context : Option Context) (resolver : Resolver) (s t : Session)
    (parsed : ParsedToken) (issuer : Value) (document : Document) (m : VerificationMethod)
    (key : PublicKey) : Prop where
  read : ParsedToken.ofText parsed.raw = .ok parsed
  names : parsed.claims.NamesIssuer issuer
  nonempty : issuer.isTruthy = true
  gives : resolver.Gives context issuer s document t
  chooses : document.Chooses parsed.kid m
  mem : m ∈ document.methods
  holds : m.Holds key
  covered : ∃ c, parsed.Covered r key c

theorem embedded_sound {v : Value} (h : embedded r context resolver v s = (.ok (), t)) :
    ∃ res parsed issuer document m key, resolver = some res ∧ v = .text parsed.raw ∧
      Vouched r context res s t parsed issuer document m key := by
  cases v with
  | text token =>
    obtain ⟨read, document, m, verifier, hread, htruthy, hask, hm, hverifier, hverify⟩ :=
      credentialToken_eq_ok h
    obtain ⟨hparsed, hcredential⟩ := readCredential_eq_ok_iff.mp hread
    obtain ⟨_, ⟨⟩, htext⟩ := ParsedToken.ofValue_eq_ok_iff.mp hparsed
    obtain ⟨res, hresolver, hgives⟩ := Resolver.ask_eq_ok_iff.mp hask
    obtain ⟨key, hholds, rfl⟩ := methodVerifier_eq_ok hverifier
    have hchooses := chooseMethod_eq_ok_iff.mp hm
    obtain ⟨c, header, -, hcovered⟩ := Verifier.covered_of_verify hverify
    obtain ⟨rfl, -, covered⟩ := hcovered read.token htext
    exact ⟨res, read.token, read.credential.issuer, document, m, key, hresolver, rfl,
      { read := htext
        names := Claims.namesIssuer_of_toCredential hcredential htruthy
        nonempty := htruthy
        gives := hgives
        chooses := hchooses
        mem := hchooses.mem
        holds := hholds
        covered := ⟨c, covered⟩ }⟩
  | _ => cases h

/-- The document of an identity whose secret seed is zero. -/
def zeroDocument : Document :=
  ⟨.text "a", [⟨.text "a#key", .text "JsonWebKey2020", .text "a", .object zeroKey.toJwk⟩]⟩

theorem embedded_sound_zeroToken :
    ∃ t, embedded [.edDsa] none (some (.ofTable [("a", zeroDocument)])) (.text zeroToken) .initial =
        (.ok (), t) ∧
      ∃ res parsed issuer document m key, Vouched [.edDsa] none res .initial t parsed issuer document
        m key := by
  obtain ⟨_, t, h⟩ : ∃ u t, embedded [.edDsa] none (some (.ofTable [("a", zeroDocument)]))
      (.text zeroToken) .initial = (.ok u, t) := Run.exists_of_isOk (by decide +kernel)
  obtain ⟨res, parsed, issuer, document, m, key, -, -, vouched⟩ := embedded_sound h
  exact ⟨t, h, res, parsed, issuer, document, m, key, vouched⟩

end Verify

end Attest
