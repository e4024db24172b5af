import Attest.Proofs.Claims.Decoding
import Attest.Proofs.Token.Parsed
import Attest.Proofs.Verification.Stages

/-! Tokens that cannot be read. A text that is no token of the expected form is reported as such, but
for two exceptions: a payload with a whole number of too many digits, and a header that names an
algorithm without being an object. These are reported as errors about a single value, which a caller
who handles the errors of the library does not expect. -/

namespace Attest

namespace Value

theorem Fault.kind_isA_library (f : Fault) : f.kind.isA .library = false := by
  cases f <;> rfl

end Value

theorem KeyError.kind_isA_library (e : KeyError) : e.kind.isA .library = false := by
  cases e with
  | fault f => exact f.kind_isA_library
  | base64 e => cases e <;> rfl
  | base58 e => cases e <;> rfl
  | _ => rfl

theorem BasicError.kind_isA_library (e : BasicError) : e.kind.isA .library = false := by
  cases e with
  | fault f => exact f.kind_isA_library
  | key e => exact e.kind_isA_library
  | jws e =>
    cases e with
    | fault f => exact f.kind_isA_library
    | write e => cases e <;> rfl
    | _ => rfl
  | range e => cases e <;> rfl
  | format e => cases e <;> rfl
  | noInteger e => cases e <;> rfl
  | json e => cases e <;> rfl
  | write e => cases e <;> rfl
  | literal | ascii => rfl

theorem BasicError.kind_ne_tokenParse (e : BasicError) : e.kind ≠ .tokenParse := by
  intro h
  have hlibrary := e.kind_isA_library
  rw [h] at hlibrary
  cases hlibrary

namespace ParsedToken

/-- A token that is taken apart, and read no further for a reason that is not reported as one of the
token. -/
inductive Escapes (s : String) : Prop
  | digits (c : Jws.Compact) (n : Nat) (ascii : ∀ ch ∈ s.toList, ch.toNat < 128)
      (extracted : Jws.Extracted (Text.Utf8.encode s.toList) c)
      (payload : Json.readBytes Json.digitLimit c.payload = .error (.tooManyDigits n))
  | header (c : Jws.Compact) (claims : Claims) (ascii : ∀ ch ∈ s.toList, ch.toNat < 128)
      (extracted : Jws.Extracted (Text.Utf8.encode s.toList) c)
      (payload : readClaims c.payload = .ok claims) (header : c.header.object? = none)

theorem tokenBytes_eq_ok_iff {s : String} {bytes : Bytes} :
    tokenBytes s = .ok bytes ↔
      (∀ ch ∈ s.toList, ch.toNat < 128) ∧ bytes = Text.Utf8.encode s.toList := by
  unfold tokenBytes
  rw [Except.mapError_eq_ok_iff, Text.ascii_eq_ok_iff]

/-- A payload that holds no claims is reported as one of the token unless a number is too long. -/
theorem readClaims_eq_error {payload : Bytes} {e : Error} (h : readClaims payload = .error e) :
    e.kind = .tokenParse ∨
      ∃ n, Json.readBytes Json.digitLimit payload = .error (.tooManyDigits n) := by
  unfold readClaims at h
  split at h
  · rename_i n hread
    exact .inr ⟨n, hread⟩
  · obtain rfl := Except.error.inj h
    exact .inl rfl
  · split at h
    · cases h
    · obtain rfl := Except.error.inj h
      exact .inl rfl
  · obtain rfl := Except.error.inj h
    exact .inl rfl

theorem readClaims_of_tooManyDigits {payload : Bytes} {n : Nat}
    (h : Json.readBytes Json.digitLimit payload = .error (.tooManyDigits n)) :
    readClaims payload = .error (.basic (.json (.tooManyDigits n))) := by
  unfold readClaims
  rw [h]

/-- A value is no pair of a name and a value unless it has two elements. -/
theorem pair_of_elements {v : Value} {items : List Value} (h : v.elements = .ok items)
    (hlength : items.length ≠ 2) (index : Nat) :
    pair index v = .error (.pairLength index items.length) := by
  unfold pair
  rw [h]
  match items, hlength with
  | [], _ => rfl
  | [_], _ => rfl
  | [_, _], hlength => exact absurd rfl hlength
  | _ :: _ :: _ :: _, _ => rfl

/-- One item that is no pair is enough for a list not to be a list of pairs. -/
theorem pairsFrom_eq_error_of_mem {items : List Value} {item : Value} (hitem : item ∈ items)
    (hpair : ∀ index, ∃ f, pair index item = .error f) (index : Nat) :
    ∃ f, pairsFrom index items = .error f := by
  induction items generalizing index with
  | nil => cases hitem
  | cons first rest ih =>
    unfold pairsFrom
    cases hfirst : pair index first with
    | error f => exact ⟨f, rfl⟩
    | ok m =>
      rcases List.mem_cons.mp hitem with rfl | hrest
      · obtain ⟨f, hf⟩ := hpair index
        rw [hf] at hfirst
        cases hfirst
      · obtain ⟨f, hf⟩ := ih hrest (index + 1)
        exact ⟨f, by simp only [hf]; rfl⟩

/-- A list or a text in which a name of three letters occurs is no list of pairs. -/
theorem headerObject_eq_error {header : Value} (h : header.hasName "alg" = .ok true)
    (hobject : header.object? = none) : ∃ f, headerObject header = .error f := by
  have halg (index : Nat) : ∃ f, pair index (.text "alg") = .error f :=
    ⟨_, pair_of_elements rfl (by decide) index⟩
  cases header with
  | object o => cases hobject
  | list items =>
    obtain ⟨item, hitem, hname⟩ := List.any_eq_true.mp (Except.ok.inj h)
    obtain rfl : item = .text "alg" := by
      cases item with
      | text s => rw [Option.some.inj (eq_of_beq hname)]
      | _ => cases hname
    obtain ⟨f, hf⟩ := pairsFrom_eq_error_of_mem hitem halg 0
    exact ⟨f, by simp only [headerObject, Value.elements, hf]; rfl⟩
  | text s =>
    cases hs : s.toList with
    | nil =>
      have hoccurs : Text.occursIn "alg".toList s.toList = true := Except.ok.inj h
      rw [hs] at hoccurs
      cases hoccurs
    | cons c rest =>
      have hletter (index : Nat) : ∃ f, pair index (.text (String.singleton c)) = .error f :=
        ⟨_, pair_of_elements rfl (by simp) index⟩
      have hfirst : Value.text (String.singleton c) ∈
          s.toList.map fun c => Value.text (String.singleton c) :=
        List.mem_map.mpr ⟨c, hs ▸ List.mem_cons_self, rfl⟩
      obtain ⟨f, hf⟩ := pairsFrom_eq_error_of_mem hfirst hletter 0
      exact ⟨f, by simp only [headerObject, Value.elements, hf]; rfl⟩
  | _ => cases h

/-- A text that is not read is reported as no token, but for the two exceptions. -/
theorem ofText_eq_error {s : String} {e : Error} (h : ofText s = .error e) :
    e.kind = .tokenParse ∨ Escapes s := by
  unfold ofText at h
  rw [Except.bind_eq_error_iff] at h
  rcases h with h | ⟨bytes, hbytes, h⟩
  · obtain ⟨_, -, rfl⟩ := Except.mapError_eq_error_iff.mp h
    exact .inl rfl
  obtain ⟨hascii, rfl⟩ := tokenBytes_eq_ok_iff.mp (Except.mapError_eq_ok_iff.mp hbytes)
  rw [Except.bind_eq_error_iff] at h
  rcases h with h | ⟨c, hc, h⟩
  · obtain ⟨_, -, rfl⟩ := Except.mapError_eq_error_iff.mp h
    exact .inl rfl
  have hextracted := Jws.extract_eq_ok_iff.mp (Except.mapError_eq_ok_iff.mp hc)
  rw [Except.bind_eq_error_iff] at h
  rcases h with h | ⟨claims, hclaims, h⟩
  · exact (readClaims_eq_error h).imp_right fun ⟨n, hn⟩ => .digits c n hascii hextracted hn
  rw [Except.bind_eq_error_iff] at h
  rcases h with h | ⟨headers, hheaders, h⟩
  · refine .inr (.header c claims hascii hextracted hclaims ?_)
    cases hheader : c.header with
    | object o =>
      rw [hheader, headerObject_object] at h
      cases h
    | _ => rfl
  · cases h

theorem ofText_of_escapes {s : String} (h : Escapes s) :
    ∃ e, ofText s = .error (.basic e) := by
  have hbytes (c : Jws.Compact) (hascii : ∀ ch ∈ s.toList, ch.toNat < 128)
      (hextracted : Jws.Extracted (Text.Utf8.encode s.toList) c) :
      ofText s = (do
        let claims ← readClaims c.payload
        let headers ← (headerObject c.header).mapError .ofFault
        return ⟨s, headers, claims⟩) := by
    unfold ofText
    rw [tokenBytes_eq_ok_iff.mpr ⟨hascii, rfl⟩]
    show ((Jws.extract _).mapError _ >>= _) = _
    rw [Jws.extract_eq_ok_iff.mpr hextracted]
    rfl
  cases h with
  | digits c n hascii hextracted hpayload =>
    rw [hbytes c hascii hextracted, readClaims_of_tooManyDigits hpayload]
    exact ⟨_, rfl⟩
  | header c claims hascii hextracted hpayload hheader =>
    obtain ⟨f, hf⟩ := headerObject_eq_error hextracted.algorithm hheader
    rw [hbytes c hascii hextracted, hpayload, hf]
    exact ⟨.fault f, rfl⟩

/-- A reader of tokens that fails where a text is no token, and else reports that it is none of the
kind it reads. -/
theorem fails_tokenParse_iff {α : Type} {s : String} {read : Except Error α}
    (hfails : ∀ e, ofText s = .error e → read = .error e)
    (hfailed : ∀ e, read = .error e → ofText s = .error e ∨ e.kind = .tokenParse) :
    (∀ e, read = .error e → e.kind = .tokenParse) ↔ ¬Escapes s := by
  constructor
  · intro h hescapes
    obtain ⟨e, he⟩ := ofText_of_escapes hescapes
    exact e.kind_ne_tokenParse (h _ (hfails _ he))
  · intro h e he
    rcases hfailed e he with he | hkind
    · exact (ofText_eq_error he).resolve_right h
    · exact hkind

end ParsedToken

namespace Claims

theorem kind_of_toCredential_eq_error {claims : Claims} {e : Error}
    (h : toCredential claims = .error e) : e.kind = .tokenParse := by
  obtain ⟨p, -, rfl⟩ := toCredential_eq_error_iff.mp h
  rfl

theorem kind_of_toPresentation_eq_error {claims : Claims} {e : Error}
    (h : toPresentation claims = .error e) : e.kind = .tokenParse := by
  obtain ⟨p, -, rfl⟩ := toPresentation_eq_error_iff.mp h
  rfl

end Claims

namespace Verify

theorem readCredential_eq_error_iff {token : Value} {e : Error} :
    readCredential token = .error e ↔ ParsedToken.ofValue token = .error e ∨
      ∃ t, ParsedToken.ofValue token = .ok t ∧ Claims.toCredential t.claims = .error e := by
  unfold readCredential
  exact Except.bind_bind_pure_eq_error_iff

theorem readPresentation_eq_error_iff {token : Value} {e : Error} :
    readPresentation token = .error e ↔ ParsedToken.ofValue token = .error e ∨
      ∃ t, ParsedToken.ofValue token = .ok t ∧ Claims.toPresentation t.claims = .error e := by
  unfold readPresentation
  exact Except.bind_bind_pure_eq_error_iff

theorem readCredential_eq_error {s : String} {e : Error} (h : readCredential (.text s) = .error e) :
    e.kind = .tokenParse ∨ ParsedToken.Escapes s := by
  rcases readCredential_eq_error_iff.mp h with h | ⟨_, -, h⟩
  · exact ParsedToken.ofText_eq_error h
  · exact .inl (Claims.kind_of_toCredential_eq_error h)

/-- A text that is not read, as a token or as the token of a credential or of a presentation, is
reported as no such token exactly if it does not escape. -/
theorem failures_tokenParse_iff (s : String) :
    ((∀ e, ParsedToken.ofText s = .error e → e.kind = .tokenParse) ↔ ¬ParsedToken.Escapes s) ∧
    ((∀ e, readCredential (.text s) = .error e → e.kind = .tokenParse) ↔
      ¬ParsedToken.Escapes s) ∧
    ((∀ e, readPresentation (.text s) = .error e → e.kind = .tokenParse) ↔
      ¬ParsedToken.Escapes s) := by
  refine ⟨ParsedToken.fails_tokenParse_iff (fun _ he => he) (fun _ he => .inl he),
    ParsedToken.fails_tokenParse_iff (fun e he => readCredential_eq_error_iff.mpr (.inl he)) ?_,
    ParsedToken.fails_tokenParse_iff (fun e he => readPresentation_eq_error_iff.mpr (.inl he)) ?_⟩
  · intro e he
    exact (readCredential_eq_error_iff.mp he).imp_right fun ⟨_, _, he⟩ =>
      Claims.kind_of_toCredential_eq_error he
  · intro e he
    exact (readPresentation_eq_error_iff.mp he).imp_right fun ⟨_, _, he⟩ =>
      Claims.kind_of_toPresentation_eq_error he

/-- The header of this token is a list that names an algorithm. The token is not read, and not
reported as one that cannot be read. -/
theorem not_tokenParse_listHeader : ∃ e, ParsedToken.ofText "WyJhbGciXQ.e30." = .error e ∧
    readCredential (.text "WyJhbGciXQ.e30.") = .error e ∧
    readPresentation (.text "WyJhbGciXQ.e30.") = .error e ∧ e.kind ≠ .tokenParse := by
  obtain ⟨e, he, hkind⟩ : ∃ e, ParsedToken.ofText "WyJhbGciXQ.e30." = .error e ∧ e.kind = .badValue :=
    Except.exists_of_error? (by decide +kernel)
  refine ⟨e, he, readCredential_eq_error_iff.mpr (.inl he),
    readPresentation_eq_error_iff.mpr (.inl he), ?_⟩
  rw [hkind]
  decide

end Verify

end Attest
