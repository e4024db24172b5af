import Attest.Proofs.Token.Covered
import Attest.Proofs.Token.RoundTrip

/-! What a signer signs, a verifier with the public key accepts. Of the cryptography it is asked only
that the signature of this one token verifies. -/

namespace Attest

namespace Jws

/-- What stands before the last dot of a token: the part that is signed. -/
def signedPartOf (token : Bytes) : Bytes := ((token.reverse.dropWhile (· != dot)).drop 1).reverse

theorem signedPartOf_append {signed rest : Bytes} (h : dot ∉ rest) :
    signedPartOf (signed ++ dot :: rest) = signed := by
  have hrest : ∀ b ∈ rest.reverse, (b != dot) = true := by
    intro b hb
    exact bne_iff_ne.mpr fun hdot => h (hdot ▸ List.mem_reverse.mp hb)
  have hreverse : (signed ++ dot :: rest).reverse = rest.reverse ++ dot :: signed.reverse := by
    simp
  rw [signedPartOf, hreverse, List.dropWhile_append_of_pos hrest,
    List.dropWhile_cons_of_neg (by simp), List.drop_one, List.tail_cons, List.reverse_reverse]

variable {r : Registry} {ecdsa : Crypto.P256.Signatures} {header : Object} {payload : Bytes}
  {key : PrivateKey} {a : Algorithm} {token : String}

theorem Issued.signedPartOf (h : Issued r ecdsa header payload key a token) :
    signedPartOf (Text.Utf8.encode token.toList) = signedText header payload := by
  rw [h.bytes, signedPartOf_append (dot_not_mem_segment _)]

theorem Issued.bytes_of_signs (h : Issued r ecdsa header payload key a token) (hsigns : a ≠ .none) :
    Text.Utf8.encode token.toList = signedText header payload ++
      dot :: segment (key.sign ecdsa (signedText header payload)) := by
  have hsigned : signatureBytes ecdsa a key (signedText header payload) =
      key.sign ecdsa (signedText header payload) := if_neg (by simpa using hsigns)
  rw [h.bytes, hsigned]

/-- The token of a signer is accepted under the signer's public key. -/
theorem Issued.accepted (h : Issued r ecdsa header payload key a token)
    (hwell : (Value.object header).WellFormed) (hraw : isRawPayload (.object header) = .ok false)
    (hlimits : WithinLimits (Text.Utf8.encode token.toList)) (hsigns : a ≠ .none)
    (hchosen : chooseAlgorithm r (key.publicKey.algorithms r) a.name = .ok a)
    (hsignature : key.publicKey.verify (Jws.signedPartOf (Text.Utf8.encode token.toList))
      (key.sign ecdsa (Jws.signedPartOf (Text.Utf8.encode token.toList))) = true) :
    Verifier.check r key.publicKey (.text token) = .ok () := by
  rw [h.signedPartOf] at hsignature
  have hsigned : signatureBytes ecdsa a key (signedText header payload) =
      key.sign ecdsa (signedText header payload) := if_neg (by simpa using hsigns)
  refine Verifier.check_text_eq_ok_iff.mpr ⟨h.parts, h.extracted hwell hraw hlimits,
    verify_eq_ok_iff.mpr ⟨header, a, _,
      { isObject := rfl
        checked := h.checked
        named := h.named
        chosen := hchosen
        fits := h.fits
        decoded := decodeSegment?_segment _
        signs := hsigns
        signed := ?_ }⟩⟩
  rw [hsigned]
  exact hsignature

end Jws

namespace Signer

/-- What a signer may ask for who wants the algorithm of the own key: nothing, its name, or for an
Ed25519 key the name of the curve. -/
inductive Asks : (key : PrivateKey) → (algorithm : Value) → Prop
  | nothing (key : PrivateKey) : Asks key .null
  | name (key : PrivateKey) : Asks key (.text key.algorithm)
  | curve (key : Crypto.Ed25519.PrivateKey) : Asks (.ed25519 key) (.text "Ed25519")

/-- The names of the algorithms with which a key signs. -/
def namesOf : PrivateKey → List String
  | .p256 _ => ["ES256"]
  | .ed25519 _ => ["EdDSA", "Ed25519"]

theorem algorithm_mem_namesOf (key : PrivateKey) : key.algorithm ∈ namesOf key := by
  cases key <;> exact List.mem_cons_self

/-- The name in the header of such a signer is one of the key's algorithms. -/
theorem Asks.mem_namesOf {r : Jws.Registry} {ecdsa : Crypto.P256.Signatures}
    {id kid algorithm : Value} {key : PrivateKey} {signer : Signer} {header : Object}
    {a : Jws.Algorithm} (hasks : Asks key algorithm)
    (hsigner : ofKey r ecdsa id (.key key) kid algorithm = .ok signer)
    (hheader : signer.header r = .ok header)
    (hnamed : Object.get? header "alg" = some (.text a.name)) : a.name ∈ namesOf key := by
  obtain ⟨label, hlabel, hsigner⟩ := Except.bind_eq_ok_iff.mp hsigner
  obtain rfl := Except.ok.inj hsigner
  obtain ⟨chosen, hchosen, rfl⟩ := header_eq_ok hheader
  obtain rfl : chosen = .text a.name := Option.some.inj hnamed
  have hown (h : label = .text key.algorithm) : a.name ∈ namesOf key := by
    subst h
    have hname : a.name = key.algorithm := by
      cases key <;> exact (Value.text.inj (Except.ok.inj hchosen)).symm
    rw [hname]
    exact algorithm_mem_namesOf key
  cases hasks with
  | nothing => exact hown (Except.ok.inj hlabel).symm
  | name => exact hown (Except.ok.inj hlabel).symm
  | curve key =>
    obtain rfl : Value.text "Ed25519" = label := Except.ok.inj hlabel
    have hname : (if r.contains "Ed25519" then "Ed25519" else "EdDSA") = a.name :=
      Value.text.inj (Except.ok.inj hchosen)
    rw [← hname]
    split
    · exact List.mem_cons_of_mem _ List.mem_cons_self
    · exact List.mem_cons_self

theorem ne_none_of_mem_namesOf {key : PrivateKey} {a : Jws.Algorithm} (h : a.name ∈ namesOf key) :
    a ≠ .none := by
  rintro rfl
  cases key with
  | p256 k => exact absurd (show "none" ∈ ["ES256"] from h) (by decide)
  | ed25519 k => exact absurd (show "none" ∈ ["EdDSA", "Ed25519"] from h) (by decide)

theorem mem_algorithms_of_mem_namesOf {r : Jws.Registry} {key : PrivateKey} {name : String}
    (h : name ∈ namesOf key) (hcontains : r.contains name = true) :
    name ∈ key.publicKey.algorithms r := by
  cases key with
  | p256 k => exact h
  | ed25519 k => exact List.mem_filter.mpr ⟨h, hcontains⟩

/-- A signer who asks for the algorithm of the own key signs with one that the public key allows. -/
theorem Signs.chosen_of_asks {r : Jws.Registry} {ecdsa : Crypto.P256.Signatures}
    {id kid algorithm : Value} {key : PrivateKey} {signer : Signer} {a : Jws.Algorithm}
    {claims header : Object} {token : String} (h : Signs r ecdsa key a claims header token)
    (hasks : Asks key algorithm) (hsigner : ofKey r ecdsa id (.key key) kid algorithm = .ok signer)
    (hheader : signer.header r = .ok header) :
    a ≠ .none ∧ Jws.chooseAlgorithm r (key.publicKey.algorithms r) a.name = .ok a := by
  have hname := hasks.mem_namesOf hsigner hheader h.issued.named
  obtain ⟨hfound, -⟩ := Jws.chooseAlgorithm_eq_ok_iff.mp h.issued.chosen
  have hcontains : r.contains a.name = true := by
    rw [Jws.Registry.contains, hfound]
    rfl
  have hallowed := mem_algorithms_of_mem_namesOf hname hcontains
  refine ⟨ne_none_of_mem_namesOf hname, Jws.chooseAlgorithm_eq_ok_iff.mpr ⟨hfound, ?_⟩⟩
  rw [if_neg (List.ne_nil_of_mem hallowed)]
  exact hallowed

/-- A signer who asks for no algorithm signs with one that the public key allows. -/
theorem Signs.chosen {r : Jws.Registry} {ecdsa : Crypto.P256.Signatures} {id kid : Value}
    {key : PrivateKey} {signer : Signer} {a : Jws.Algorithm} {claims header : Object}
    {token : String} (hsigner : ofKey r ecdsa id (.key key) kid .null = .ok signer)
    (hheader : signer.header r = .ok header) (h : Signs r ecdsa key a claims header token) :
    a ≠ .none ∧ Jws.chooseAlgorithm r (key.publicKey.algorithms r) a.name = .ok a :=
  h.chosen_of_asks (.nothing key) hsigner hheader

end Signer

end Attest
