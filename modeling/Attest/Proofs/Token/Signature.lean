import Attest.Proofs.Token.Compact

/-! When the signature of a token is accepted under a key, and which algorithms it may then have been
made with: those of the key's own curve, whatever the header asks for and whatever is available. -/

namespace Attest

namespace Jws

theorem Algorithm.find?_all_name (a : Algorithm) : Registry.find? Algorithm.all a.name = some a := by
  cases a <;> rfl

theorem Algorithm.name_injective {a b : Algorithm} (h : a.name = b.name) : a = b := by
  have ha := find?_all_name a
  rw [h, find?_all_name b] at ha
  exact (Option.some.inj ha).symm

theorem chooseAlgorithm_eq_ok_iff {r : Registry} {allowed : List String} {name : String}
    {a : Algorithm} :
    chooseAlgorithm r allowed name = .ok a ↔
      r.find? name = some a ∧ if allowed = [] then a.isRecommended = true else name ∈ allowed := by
  unfold chooseAlgorithm
  cases r.find? name with
  | none => simp
  | some b =>
    cases allowed with
    | nil =>
      by_cases h : b.isRecommended = true
      · simp only [List.isEmpty_nil, h, if_true]
        grind
      · simp only [List.isEmpty_nil, h, if_true]
        grind
    | cons first rest =>
      by_cases hname : name ∈ first :: rest
      · simp [hname]
      · simp [hname]

theorem Registry.find?_eq_some {r : Registry} {name : String} {a : Algorithm}
    (h : r.find? name = some a) : a.name = name ∧ a ∈ r :=
  ⟨by simpa using List.find?_some h, List.mem_of_find?_eq_some h⟩

theorem algorithmName_eq_ok_iff {header : Object} {name : String} :
    algorithmName header = .ok name ↔ Object.get? header "alg" = some (.text name) := by
  unfold algorithmName
  split
  · rename_i found h
    simp [h]
  · rename_i h
    constructor
    · intro hname
      cases hname
    · intro hname
      exact absurd hname (h name)

/-- A token has a header that passes the checks and names an algorithm that may be used with the key,
and a signature of its signed part under the key. -/
structure Accepted (r : Registry) (allowed : List String) (key : PublicKey) (c : Compact)
    (header : Object) (a : Algorithm) (signature : Bytes) : Prop where
  isObject : c.header = .object header
  checked : checkHeader header = .ok ()
  named : Object.get? header "alg" = some (.text a.name)
  chosen : chooseAlgorithm r allowed a.name = .ok a
  fits : checkKey a key.curve = .ok ()
  decoded : decodeSegment? c.signatureSegment = some signature
  signs : a ≠ .none
  signed : key.verify c.signedPart signature = true

theorem verify_eq_ok_iff {r : Registry} {allowed : List String} {key : PublicKey} {c : Compact} :
    verify r allowed key c = .ok () ↔
      ∃ header a signature, Accepted r allowed key c header a signature := by
  constructor
  · intro h
    unfold verify at h
    split at h
    · rename_i header hheader
      simp only [Except.bind_eq_ok_iff, algorithmName_eq_ok_iff] at h
      obtain ⟨_, hchecked, name, hname, a, hchosen, _, hkey, h⟩ := h
      obtain ⟨rfl, -⟩ := Registry.find?_eq_some (chooseAlgorithm_eq_ok_iff.mp hchosen).1
      split at h
      · rename_i signature hsignature
        split at h
        · rename_i hsigned
          simp only [Bool.and_eq_true, bne_iff_ne] at hsigned
          exact ⟨header, a, signature, hheader, hchecked, hname, hchosen, hkey, hsignature,
            hsigned.1, hsigned.2⟩
        · cases h
      · cases h
    · cases h
  · rintro ⟨header, a, signature, h⟩
    unfold verify
    rw [h.isObject]
    simp only [Except.bind_eq_ok_iff, algorithmName_eq_ok_iff]
    refine ⟨(), h.checked, a.name, h.named, a, h.chosen, (), h.fits, ?_⟩
    simp only [h.decoded, h.signed, Bool.and_true, bne_iff_ne, ne_eq, h.signs, not_false_eq_true,
      if_true]
    rfl

end Jws

namespace PublicKey

/-- The algorithms that signatures under a key are made with. -/
def Suits : PublicKey → Jws.Algorithm → Prop
  | p256 _, a => a = .es256
  | ed25519 _, a => a = .edDsa ∨ a = .ed25519

/-- Of the algorithms that a key allows, only those of its own curve are chosen. -/
theorem suits_of_chosen {r : Jws.Registry} {key : PublicKey} {a : Jws.Algorithm}
    (hchosen : Jws.chooseAlgorithm r (key.algorithms r) a.name = .ok a)
    (hkey : Jws.checkKey a key.curve = .ok ()) : key.Suits a := by
  obtain ⟨-, hallowed⟩ := Jws.chooseAlgorithm_eq_ok_iff.mp hchosen
  cases key with
  | p256 k =>
    rw [if_neg (by simp [algorithms])] at hallowed
    have hname : a.name = "ES256" := by simpa [algorithms] using hallowed
    exact Jws.Algorithm.name_injective hname
  | ed25519 k =>
    split at hallowed
    -- No algorithm of the curve is available, and the recommended ones ask for other keys.
    · cases a <;> first | exact absurd hallowed (by decide) | exact nomatch hkey
    · have hname : a.name = "EdDSA" ∨ a.name = "Ed25519" := by
        simpa using (List.mem_filter.mp hallowed).1
      exact hname.imp (fun h => Jws.Algorithm.name_injective h)
        fun h => Jws.Algorithm.name_injective h

end PublicKey

end Attest
