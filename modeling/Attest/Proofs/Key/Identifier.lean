import Attest.Key.DidKey
import Attest.Proofs.Crypto.P256
import Attest.Proofs.Key.Loading
import Attest.Proofs.Key.NumberText

/-! Keys are read back from their identifiers and from JSON objects. -/

namespace Attest

namespace Text

theorem beginsWith_iff {start s : String} : beginsWith start s = true ↔ ∃ rest, s = start ++ rest := by
  rw [beginsWith, Option.isSome_iff_exists]
  constructor
  · rintro ⟨rest, hrest⟩
    refine ⟨String.ofList rest, String.toList_inj.mp ?_⟩
    rw [String.toList_append, String.toList_ofList]
    exact after?_eq_some_iff.mp hrest
  · rintro ⟨rest, rfl⟩
    exact ⟨rest.toList, after?_eq_some_iff.mpr String.toList_append⟩

theorem endsWith_iff {ending s : String} : endsWith ending s = true ↔ ∃ front, s = front ++ ending := by
  rw [endsWith, Option.isSome_iff_exists]
  constructor
  · rintro ⟨front, hfront⟩
    refine ⟨String.ofList front.reverse, String.toList_inj.mp ?_⟩
    rw [String.toList_append, String.toList_ofList, ← List.reverse_inj, List.reverse_append,
      List.reverse_reverse]
    exact after?_eq_some_iff.mp hfront
  · rintro ⟨front, rfl⟩
    refine ⟨front.toList.reverse, after?_eq_some_iff.mpr ?_⟩
    rw [String.toList_append, List.reverse_append]

theorem beginsWith_append (start rest : String) : beginsWith start (start ++ rest) = true :=
  beginsWith_iff.mpr ⟨rest, rfl⟩

theorem endsWith_append (rest ending : String) : endsWith ending (rest ++ ending) = true :=
  endsWith_iff.mpr ⟨rest, rfl⟩

end Text

namespace DidKey

theorem keyOfBytes_self (key : PublicKey) : keyOfBytes (kindBytes key ++ keyBytes key) = .ok key := by
  cases key with
  | p256 key =>
    show keyOfBytes (0x80 :: 0x24 :: key.compressed) = _
    simp [keyOfBytes, Crypto.P256.PublicKey.ofBytes_compressed]
  | ed25519 key =>
    show keyOfBytes (0xed :: 0x01 :: key.bytes) = _
    simp only [keyOfBytes, Crypto.Ed25519.PublicKey.of?_eq_some_iff.mpr (rfl : key.bytes = _)]

/-- The characters after the scheme of the identifier of a key. -/
def multibaseChars (key : PublicKey) : List Char :=
  'z' :: Base58.encode (kindBytes key ++ keyBytes key)

theorem isDigitChar_multibaseChars (key : PublicKey) :
    ∀ c ∈ multibaseChars key, Base58.IsDigitChar c :=
  List.forall_mem_cons.mpr ⟨by decide, Base58.isDigitChar_encode _⟩

theorem toList_multibase (key : PublicKey) : (multibase key).toList = multibaseChars key :=
  String.toList_ofList

theorem toList_encode (key : PublicKey) :
    (encode key).toList = scheme.toList ++ multibaseChars key := by
  rw [encode, String.toList_append, toList_multibase]

theorem encode_ne_empty (key : PublicKey) : encode key ≠ "" := by
  intro h
  have := congrArg String.toList h
  rw [toList_encode] at this
  cases this

theorem takeWhile_of_forall_ne {cs : List Char} {c : Char} (h : ∀ d ∈ cs, d ≠ c) :
    cs.takeWhile (· != c) = cs := by
  rw [List.takeWhile_eq_self_iff]
  intro d hd
  simpa using h d hd

theorem withoutFragment_of_forall_ne {did : String} (h : ∀ c ∈ did.toList, c ≠ '#') :
    withoutFragment did = did := by
  rw [withoutFragment, takeWhile_of_forall_ne h, String.ofList_toList]

theorem withoutFragment_append {base : String} (h : ∀ c ∈ base.toList, c ≠ '#') (rest : String) :
    withoutFragment (base ++ "#" ++ rest) = base := by
  have hall : ∀ c ∈ base.toList, (c != '#') = true := fun c hc => bne_iff_ne.mpr (h c hc)
  rw [withoutFragment, String.toList_append, String.toList_append, List.append_assoc,
    List.takeWhile_append_of_pos hall]
  show String.ofList (_ ++ List.takeWhile _ ('#' :: _)) = _
  rw [List.takeWhile_cons_of_neg (by decide), List.append_nil, String.ofList_toList]

theorem scheme_spec : ∀ c ∈ scheme.toList, c ≠ '#' ∧ Text.isBlank c = false := by
  have hall : scheme.toList.all (fun c => c != '#' && !Text.isBlank c) = true := by decide
  simpa using hall

/-- What follows the scheme in an identifier separates no further parts. -/
def IsPart (part : String) : Prop := ∀ c ∈ part.toList, c ≠ '#' ∧ c ≠ ':'

theorem isPart_multibase (key : PublicKey) : IsPart (multibase key) := by
  intro c hc
  rw [toList_multibase] at hc
  exact (isDigitChar_multibaseChars key c hc).2.2

theorem withoutFragment_scheme {part : String} (h : IsPart part) :
    withoutFragment (scheme ++ part) = scheme ++ part := by
  refine withoutFragment_of_forall_ne fun c hc => ?_
  rw [String.toList_append] at hc
  rcases List.mem_append.mp hc with hc | hc
  · exact (scheme_spec c hc).1
  · exact (h c hc).1

theorem withoutFragment_encode (key : PublicKey) : withoutFragment (encode key) = encode key :=
  withoutFragment_scheme (isPart_multibase key)

/-- The verification method of an identifier is named by the identifier and by what follows the
scheme. -/
theorem verificationMethod_scheme {part : String} (h : IsPart part) :
    verificationMethod (scheme ++ part) = scheme ++ part ++ "#" ++ part := by
  have hlast : (scheme ++ part).toList.reverse.takeWhile (· != ':') = part.toList.reverse := by
    have hall : ∀ c ∈ part.toList.reverse, (c != ':') = true := by
      intro c hc
      simpa using (h c (List.mem_reverse.mp hc)).2
    rw [String.toList_append, List.reverse_append, List.takeWhile_append_of_pos hall]
    show _ ++ List.takeWhile _ (':' :: _) = _
    rw [List.takeWhile_cons_of_neg (by decide), List.append_nil]
  simp only [verificationMethod, withoutFragment_scheme h, hlast, List.reverse_reverse,
    String.ofList_toList]

/-- A key is read back from its identifier. -/
theorem decode_encode (key : PublicKey) : decode (encode key) = .ok key := by
  have hafter : Text.after? scheme.toList (encode key).toList = some (multibaseChars key) :=
    Text.after?_eq_some_iff.mpr (toList_encode key)
  have htake : (multibaseChars key).takeWhile (· != '#') = multibaseChars key :=
    takeWhile_of_forall_ne fun c hc => (isDigitChar_multibaseChars key c hc).2.2.1
  simp only [decode, hafter, htake]
  simp only [multibaseChars, ofMultibase, Base58.decode_encode, keyOfBytes_self]

/-- What names the only verification method of the identifier of a key within its document. -/
def fragment (key : PublicKey) : String := "#" ++ multibase key

theorem verificationMethod_encode (key : PublicKey) :
    verificationMethod (encode key) = encode key ++ fragment key := by
  rw [encode, verificationMethod_scheme (isPart_multibase key), fragment, String.append_assoc]

end DidKey

namespace PublicKey

theorem point_self (key : Crypto.P256.PublicKey) :
    Jwk.point (Bytes.ofNat 32 key.x) (Bytes.ofNat 32 key.y) = .ok key := by
  obtain ⟨hx, hy⟩ := key.bounds
  rw [Jwk.point, key.toNat_x, key.toNat_y, Nat.mod_eq_of_lt hx, Nat.mod_eq_of_lt hy,
    Crypto.P256.PublicKey.of?_self]

/-- A key is read back from a JSON object. -/
theorem ofJwk_toJwk (key : PublicKey) : ofJwk (.object key.toJwk) = .ok key := by
  refine ofJwk_eq_ok_iff.mpr ⟨_, rfl, ?_⟩
  cases key with
  | p256 key =>
    exact .p256 rfl (Base64Url.ofValue_text _) (Base64Url.ofValue_text _) (point_self key)
  | ed25519 key => exact .ed25519 rfl (Base64Url.ofValue_text _)

end PublicKey

end Attest
