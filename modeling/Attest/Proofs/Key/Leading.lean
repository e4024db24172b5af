import Attest.Proofs.Codec.Digits
import Attest.Proofs.Key.Accepted

/-! Keys and their identifiers: each identifier gives back its key, with or without a fragment, and shows
the kind of the key at its start. The bytes that tell the kind are the highest ones of the number that is
written in base 58, so they fix its first digits, whatever the key is. -/

namespace Attest

namespace DidKey

theorem decode_withoutFragment {did : String} {key : PublicKey} :
    decode (withoutFragment did) = .ok key ↔ decode did = .ok key := by
  rw [decode_eq_ok_iff, decode_eq_ok_iff, withoutFragment_of_forall_ne ne_of_mem_withoutFragment]

/-- What the identifiers of all keys of one kind begin with. -/
def start : PublicKey → String
  | .p256 _ => "did:key:zDn"
  | .ed25519 _ => "did:key:z6Mk"

/-- The identifier with some bytes of a key. -/
def spelled (key : PublicKey) (form : Bytes) : String :=
  scheme ++ String.ofList ('z' :: Base58.encode (kindBytes key ++ form))

theorem spelled_keyBytes (key : PublicKey) : spelled key (keyBytes key) = encode key := rfl

theorem exists_spelled_eq (key : PublicKey) (form : Bytes) {digits : List Char}
    (h : ∃ low, Base58.encode (kindBytes key ++ form) = digits ++ low) :
    ∃ rest, spelled key form = scheme ++ String.ofList ('z' :: digits) ++ rest := by
  obtain ⟨low, hlow⟩ := h
  refine ⟨String.ofList low, ?_⟩
  rw [spelled, hlow, String.append_assoc, ← String.ofList_append, List.cons_append]

theorem leading_ed25519 {raw : Bytes} (h : raw.length = 32) :
    ∃ low, Base58.encode ([0xed, 0x01] ++ raw) = ['6', 'M', 'k'] ++ low :=
  Base58.exists_encode_append 24 44 18023 (by simp) (by simp [h]) (by decide) (by rw [h]; decide)
    (by rw [h]; decide)

theorem leading_compressed {parity : UInt8} (hparity : parity = 2 ∨ parity = 3) {x : Bytes}
    (h : x.length = 32) :
    ∃ low, Base58.encode ([0x80, 0x24, parity] ++ x) = ['D', 'n'] ++ low := by
  rcases hparity with rfl | rfl <;>
    exact Base58.exists_encode_append 24 46 741 (by simp) (by simp [h]) (by decide)
      (by rw [h]; decide) (by rw [h]; decide)

theorem exists_encode_eq (key : PublicKey) : ∃ rest, encode key = start key ++ rest := by
  cases key with
  | p256 key =>
    have hparity : UInt8.ofNat (2 + key.y % 2) = 2 ∨ UInt8.ofNat (2 + key.y % 2) = 3 := by
      rcases Nat.mod_two_eq_zero_or_one key.y with h | h <;> rw [h]
      · exact .inl rfl
      · exact .inr rfl
    exact exists_spelled_eq (.p256 key) key.compressed
      (leading_compressed hparity (Bytes.length_ofNat 32 key.x))
  | ed25519 key => exact exists_spelled_eq (.ed25519 key) key.bytes (leading_ed25519 key.length_eq)

/-- A key is read back from its identifier, also if a fragment follows; no two keys have the same
identifier, and its start shows the kind of the key. -/
theorem identifier_gives_key (key : PublicKey) :
    decode (encode key) = .ok key ∧ (∀ rest, decode (encode key ++ "#" ++ rest) = .ok key) ∧
      (∀ other, encode other = encode key ↔ other = key) ∧
      ∃ rest, encode key = start key ++ rest := by
  refine ⟨decode_encode key, fun rest => ?_, fun other => ⟨fun h => ?_, congrArg encode⟩,
    exists_encode_eq key⟩
  · have hbase : ∀ c ∈ (encode key).toList, c ≠ '#' := by
      rw [← withoutFragment_encode]
      exact ne_of_mem_withoutFragment
    rw [← decode_withoutFragment, withoutFragment_append hbase]
    exact decode_encode key
  · have hother := decode_encode other
    rw [h, decode_encode] at hother
    exact (Except.ok.inj hother).symm

end DidKey

end Attest
