import Attest.Claims.Mapping
import Attest.Proofs.Run

/-! What is read from a claim set: the issuer of a credential, the credentials of a presentation, and
for whom a token is meant. -/

namespace Attest

theorem Credential.issuer_of_ofValue {o : Object} {c : Credential}
    (h : ofValue (.object o) = .ok c) : c.issuer = (Object.get? o "issuer").getD (.text "") := by
  unfold ofValue at h
  simp only at h
  split at h
  · cases h
    rfl
  · cases h
    rfl
  · cases h

/-- The subject of a credential that is read is an object. -/
theorem Credential.subject_of_ofValue {v : Value} {c : Credential} (h : ofValue v = .ok c) :
    ∃ subject, c.subject = .object subject := by
  unfold ofValue at h
  split at h
  · simp only at h
    split at h
    · rename_i subject hsubject
      cases h
      exact ⟨subject, hsubject⟩
    · cases h
      exact ⟨[], rfl⟩
    · cases h
  · cases h

theorem Presentation.exists_ofValue (o : Object) : ∃ p, ofValue (.object o) = .ok p := by
  unfold ofValue
  dsimp only
  split
  · exact ⟨_, rfl⟩
  · exact ⟨_, rfl⟩
  · exact ⟨_, rfl⟩

/-- Whatever stands for the credentials of a presentation is read as a list. -/
theorem Presentation.credentials_of_ofValue {v : Value} {p : Presentation}
    (h : ofValue v = .ok p) : ∃ items, p.credentials = .list items := by
  unfold ofValue at h
  split at h
  · rename_i o
    simp only at h
    split at h
    · rename_i items hitems
      cases h
      exact ⟨items, hitems⟩
    · cases h
      exact ⟨[], rfl⟩
    · rename_i w _ _
      cases h
      exact ⟨[_], rfl⟩
  · cases h

namespace Claims

/-- The issuer that a claim set with a credential names: the one in the claim of its own unless this
is no text or empty, and then the one that the credential names. -/
inductive NamesIssuer (claims : Claims) : Value → Prop
  | claim {s : String} (hclaim : Object.get? claims "iss" = some (.text s)) (hs : s ≠ "") :
      NamesIssuer claims (.text s)
  | credential {o : Object} {v : Value}
      (hclaim : ∀ s, Object.get? claims "iss" = some (.text s) → s = "")
      (hcredential : Object.get? claims "vc" = some (.object o))
      (hmember : Object.get? o "issuer" = some v) : NamesIssuer claims v

theorem nonemptyText?_eq_some_iff {claims : Claims} {name s : String} :
    nonemptyText? claims name = some s ↔ Object.get? claims name = some (.text s) ∧ s ≠ "" := by
  unfold nonemptyText? text? Object.getD
  rw [Option.filter_eq_some_iff]
  cases h : Object.get? claims name with
  | none => simp [Value.text?]
  | some v => cases v <;> simp [Value.text?]

theorem toCredential_eq_ok_iff {claims : Claims} {c : Credential} :
    toCredential claims = .ok c ↔ ∃ o d, Object.get? claims "vc" = some (.object o) ∧
      Credential.ofValue (.object o) = .ok d ∧ c = overrideCredential claims d := by
  unfold toCredential
  constructor
  · intro h
    split at h
    · cases h
    · rename_i v hv
      split at h
      · cases h
      · rename_i d hd
        cases h
        cases v with
        | object o => exact ⟨o, d, hv, hd, rfl⟩
        | _ => cases hd
  · rintro ⟨o, d, hv, hd, rfl⟩
    rw [hv]
    simp only [hd]

/-- A credential that has an issuer has the one that the claim set names. -/
theorem namesIssuer_of_toCredential {claims : Claims} {c : Credential}
    (h : toCredential claims = .ok c) (hissuer : c.issuer.isTruthy = true) :
    NamesIssuer claims c.issuer := by
  obtain ⟨o, d, hcredential, hd, rfl⟩ := toCredential_eq_ok_iff.mp h
  have hfield : (overrideCredential claims d).issuer =
    overrideText d.issuer (nonemptyText? claims "iss") := rfl
  rw [hfield] at hissuer ⊢
  cases hs : nonemptyText? claims "iss" with
  | some s =>
    obtain ⟨hclaim, hne⟩ := nonemptyText?_eq_some_iff.mp hs
    exact .claim hclaim hne
  | none =>
    rw [hs] at hissuer
    simp only [overrideText, Credential.issuer_of_ofValue hd] at hissuer ⊢
    cases hmember : Object.get? o "issuer" with
    | none =>
      rw [hmember] at hissuer
      exact absurd hissuer (by decide)
    | some v =>
      refine .credential (fun s hclaim => ?_) hcredential hmember
      by_cases hempty : s = ""
      · exact hempty
      · rw [nonemptyText?_eq_some_iff.mpr ⟨hclaim, hempty⟩] at hs
        cases hs

theorem toPresentation_credentials {claims : Claims} {p : Presentation}
    (h : toPresentation claims = .ok p) : ∃ items, p.credentials = .list items := by
  unfold toPresentation at h
  split at h
  · cases h
  · split at h
    · cases h
    · rename_i q hq
      split at h
      · cases h
      · cases h
        obtain ⟨items, hitems⟩ := Presentation.credentials_of_ofValue hq
        exact ⟨items, hitems⟩
      · cases h

/-- For whom a token is meant: nobody if the claim is absent, a text for one name, and a list of
texts for several. -/
inductive NamesAudience : Option Value → List String → Prop
  | absent : NamesAudience none []
  | one (name : String) : NamesAudience (some (.text name)) [name]
  | several (names : List String) : NamesAudience (some (.list (names.map .text))) names

theorem filterMap_text? (names : List String) :
    (names.map Value.text).filterMap Value.text? = names := by
  induction names with
  | nil => rfl
  | cons name rest ih => rw [List.map_cons, List.filterMap_cons, ih, Value.text?]

theorem all_isText_iff {items : List Value} :
    items.all Value.isText = true ↔ ∃ names : List String, items = names.map .text := by
  constructor
  · intro h
    induction items with
    | nil => exact ⟨[], rfl⟩
    | cons v rest ih =>
      rw [List.all_cons, Bool.and_eq_true] at h
      obtain ⟨names, rfl⟩ := ih h.2
      cases v with
      | text name => exact ⟨name :: names, rfl⟩
      | _ => exact absurd h.1 (by simp [Value.isText])
  · rintro ⟨names, rfl⟩
    simp [Value.isText]

/-- A valid audience is one of which no name is dropped when it is read. -/
theorem hasValidAudience_iff {claims : Claims} :
    hasValidAudience claims = true ↔
      NamesAudience (Object.get? claims "aud") (audience claims) := by
  unfold hasValidAudience audience Object.getD
  cases h : Object.get? claims "aud" with
  | none => exact iff_of_true rfl .absent
  | some v =>
    simp only [Option.getD_some]
    cases v with
    | text name => exact iff_of_true rfl (.one name)
    | list items =>
      rw [isAudience, all_isText_iff]
      change _ ↔ NamesAudience _ (items.filterMap Value.text?)
      constructor
      · rintro ⟨names, rfl⟩
        rw [filterMap_text?]
        exact .several names
      · intro hnames
        generalize items.filterMap Value.text? = names at hnames
        cases hnames with
        | several => exact ⟨names, rfl⟩
    | _ => exact iff_of_false (by simp [isAudience]) (fun hnames => nomatch hnames)

end Claims

end Attest
