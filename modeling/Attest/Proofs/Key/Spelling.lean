import Attest.Proofs.Crypto.Point
import Attest.Proofs.Key.Leading

/-! All spellings of identifiers of keys. An identifier is accepted with blanks at its end, and the point
of a P-256 key may be given in full; of these spellings only the one that is written begins as identifiers
of keys do and ends in no blank. -/

namespace Attest

namespace DidKey

/-- The forms in which the bytes of a key are read. The first one is written. -/
def forms : PublicKey → List Bytes
  | .p256 key => [key.compressed, key.uncompressed]
  | .ed25519 key => [key.bytes]

/-- A text is an identifier of a key: it has a form of the key, and blanks may follow. -/
def Spells (text : String) (key : PublicKey) : Prop :=
  ∃ form ∈ forms key, ∃ blanks, Text.AreBlank blanks ∧ text = spelled key form ++ String.ofList blanks

theorem keyOfBytes_eq_ok_iff {bytes : Bytes} {key : PublicKey} :
    keyOfBytes bytes = .ok key ↔ ∃ form ∈ forms key, bytes = kindBytes key ++ form := by
  constructor
  · intro h
    unfold keyOfBytes at h
    split at h
    · rename_i rest
      split at h
      · rename_i k hk
        obtain rfl := Except.ok.inj h
        obtain rfl := Crypto.Ed25519.PublicKey.of?_eq_some_iff.mp hk
        exact ⟨_, List.mem_singleton_self _, rfl⟩
      · cases h
    · rename_i rest
      split at h
      · rename_i k hk
        obtain rfl := Except.ok.inj h
        exact ⟨rest, by simpa [forms] using Crypto.P256.PublicKey.ofBytes_eq_ok_iff.mp hk, rfl⟩
      all_goals cases h
    · cases h
  · rintro ⟨form, hform, rfl⟩
    cases key with
    | p256 key =>
      have hread := Crypto.P256.PublicKey.ofBytes_eq_ok_iff.mpr (by simpa [forms] using hform)
      show keyOfBytes (0x80 :: 0x24 :: form) = _
      simp [keyOfBytes, hread]
    | ed25519 key =>
      obtain rfl := List.mem_singleton.mp hform
      exact keyOfBytes_self (.ed25519 key)

theorem ofMultibase_eq_ok_iff {cs : List Char} {key : PublicKey} :
    ofMultibase cs = .ok key ↔ ∃ form ∈ forms key, ∃ blanks, Text.AreBlank blanks ∧
      cs = 'z' :: Base58.encode (kindBytes key ++ form) ++ blanks := by
  constructor
  · intro h
    unfold ofMultibase at h
    split at h
    · rename_i rest
      split at h
      · rename_i bytes hbytes
        obtain ⟨form, hform, rfl⟩ := keyOfBytes_eq_ok_iff.mp h
        obtain ⟨blanks, hblanks, rfl⟩ := Base58.decode_eq_ok_iff.mp hbytes
        exact ⟨form, hform, blanks, hblanks, rfl⟩
      · cases h
    · cases h
  · rintro ⟨form, hform, blanks, hblanks, rfl⟩
    rw [List.cons_append, ofMultibase]
    simp only [Base58.decode_eq_ok_iff.mpr ⟨blanks, hblanks, rfl⟩]
    exact keyOfBytes_eq_ok_iff.mpr ⟨form, hform, rfl⟩

theorem decode_eq_ok_iff_spells {did : String} {key : PublicKey} :
    decode did = .ok key ↔ Spells (withoutFragment did) key := by
  rw [decode_eq_ok_iff]
  simp only [ofMultibase_eq_ok_iff]
  constructor
  · rintro ⟨_, hdid, form, hform, blanks, hblanks, rfl⟩
    refine ⟨form, hform, blanks, hblanks, ?_⟩
    rw [hdid, spelled, String.append_assoc, ← String.ofList_append]
  · rintro ⟨form, hform, blanks, hblanks, hdid⟩
    refine ⟨_, ?_, form, hform, blanks, hblanks, rfl⟩
    rw [hdid, spelled, String.append_assoc, ← String.ofList_append]

/-- The text begins as identifiers of keys do, and no blank is its end. -/
structure IsRegular (text : String) : Prop where
  start : ∃ key rest, text = start key ++ rest
  ending : ∀ c, text.toList.getLast? = some c → Text.isBlank c = false

theorem isRegular_encode (key : PublicKey) : IsRegular (encode key) := by
  obtain ⟨rest, hrest⟩ := exists_encode_eq key
  refine ⟨⟨key, rest, hrest⟩, fun c hc => ?_⟩
  have hmem := List.mem_of_getLast? hc
  rw [toList_encode] at hmem
  rcases List.mem_append.mp hmem with hscheme | hdigit
  · exact (scheme_spec c hscheme).2
  · exact (isDigitChar_multibaseChars key c hdigit).2.1

theorem leading_uncompressed {coordinates : Bytes} (h : coordinates.length = 64) :
    ∃ low, Base58.encode ([0x80, 0x24, 4] ++ coordinates) = ['4', 'o', 'J'] ++ low :=
  Base58.exists_encode_append 45 89 12777 (by simp) (by simp [h]) (by decide) (by rw [h]; decide)
    (by rw [h]; decide)

/-- A point that is given in full makes no identifier of the usual beginning. -/
theorem not_start_uncompressed (key : Crypto.P256.PublicKey) (more : String) :
    ¬∃ other rest, spelled (.p256 key) key.uncompressed ++ more = start other ++ rest := by
  have hlength : (Bytes.ofNat 32 key.x ++ Bytes.ofNat 32 key.y).length = 64 := by
    rw [List.length_append, Bytes.length_ofNat, Bytes.length_ofNat]
  obtain ⟨low, hlow⟩ := exists_spelled_eq (.p256 key) key.uncompressed
    (leading_uncompressed hlength)
  rintro ⟨other, rest, h⟩
  have hchars := congrArg String.toList h
  rw [hlow] at hchars
  simp only [String.toList_append, String.toList_ofList, List.append_assoc] at hchars
  cases other <;> simp [start, scheme] at hchars

/-- Of the spellings of a key the written one is regular, and no other. -/
theorem Spells.encode_eq_iff {text : String} {key : PublicKey} (h : Spells text key) :
    encode key = text ↔ IsRegular text := by
  constructor
  · rintro rfl
    exact isRegular_encode key
  · rintro ⟨hstart, hending⟩
    obtain ⟨form, hform, blanks, hblanks, rfl⟩ := h
    have hnone : blanks = [] := by
      rcases List.eq_nil_or_concat blanks with rfl | ⟨front, c, rfl⟩
      · rfl
      · have hblank := hblanks c (by simp)
        rw [hending c (by simp)] at hblank
        cases hblank
    subst hnone
    have hkeyBytes : form = keyBytes key := by
      cases key with
      | ed25519 key => exact List.mem_singleton.mp hform
      | p256 key =>
        rcases List.mem_pair.mp hform with rfl | rfl
        · rfl
        · exact absurd hstart (not_start_uncompressed key _)
    rw [hkeyBytes, spelled_keyBytes, String.ofList_nil, String.append_empty]

/-- The identifiers that are accepted for a key are the spellings of it, and all other texts are reported
as bad values. What is written for the key that was read is the identifier up to its fragment exactly if
this begins as identifiers of keys do and ends in no blank. -/
theorem accepts_spellings (did : String) :
    (∀ key, decode did = .ok key ↔ Spells (withoutFragment did) key) ∧
      (∀ e, decode did = .error e → e.kind.isA .badValue = true) ∧
      ∀ key, decode did = .ok key →
        (encode key = withoutFragment did ↔ IsRegular (withoutFragment did)) :=
  ⟨fun _ => decode_eq_ok_iff_spells, fun _ => decode_eq_error,
    fun _ h => (decode_eq_ok_iff_spells.mp h).encode_eq_iff⟩

/-- The key whose point is the base point. -/
def baseKey : PublicKey := .p256 .base

/-- The identifier of this key. -/
def baseDid : String := "did:key:zDnaepsL7AXenJkVYdkh5KuKsSU7Ykh7kyXaLLU7auN9FWSiZ"

theorem encode_baseKey : encode baseKey = baseDid := by decide +kernel

theorem accepts_spellings_base :
    decode (baseDid ++ "#key") = .ok baseKey ∧
      encode baseKey = withoutFragment (baseDid ++ "#key") := by
  have hbase : withoutFragment (baseDid ++ "#key") = baseDid := by decide +kernel
  have hdecode : decode (baseDid ++ "#key") = .ok baseKey :=
    Except.toOption_eq_some_iff.mp (by decide +kernel)
  refine ⟨hdecode, ((accepts_spellings _).2.2 _ hdecode).mpr ?_⟩
  rw [hbase, ← encode_baseKey]
  exact isRegular_encode baseKey

/-- The identifier that has the point in full. -/
def baseDidInFull : String :=
  "did:key:z4oJ8bvMUow7fJp7Y6oHK1sHtBWTqaJdwQbcZscsJ3cE7GGscDHFbKSjYsc4EZimeRknigVKHNxisYKeM8dvEAKgS" ++
    "HKqW"

/-- A blank after the identifier of a key, or the point of the key in full, make further identifiers of
the same key. -/
theorem not_canonical_base :
    (decode (baseDid ++ " ") = .ok baseKey ∧ withoutFragment (baseDid ++ " ") ≠ encode baseKey) ∧
      decode baseDidInFull = .ok baseKey ∧ withoutFragment baseDidInFull ≠ encode baseKey :=
  ⟨⟨Except.toOption_eq_some_iff.mp (by decide +kernel), by decide +kernel⟩,
    Except.toOption_eq_some_iff.mp (by decide +kernel), by decide +kernel⟩

end DidKey

end Attest
