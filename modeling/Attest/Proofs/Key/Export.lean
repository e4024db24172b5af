import Attest.Key.Jwk
import Attest.Proofs.Crypto.Point
import Attest.Proofs.Key.Identifier
import Attest.Proofs.Token.Signing

/-! What is written for a key is read as this key, by the program and by the library that it signs with.
All numbers have the same width. A secret number of P-256 is read with any width, and one that is too
large is not written. -/

namespace Attest

/-- A text of 43 characters of the alphabet, which is the length of 32 bytes. -/
def Base64Url.IsNumber (v : Value) : Prop :=
  ∃ s : String, v = .text s ∧ s.length = 43 ∧ ∀ c ∈ s.toList, IsUrlSafe c

theorem Base64Url.isNumber_text {bytes : Bytes} (h : bytes.length = 32) :
    IsNumber (.text (text bytes)) := by
  refine ⟨_, rfl, ?_, ?_⟩
  · rw [length_text, h]
  · exact areUrlSafe_text bytes

namespace Jwk

/-- All numbers of an object are written with the same width. -/
def FullWidth (o : Object) : Prop :=
  ∀ m ∈ o, m.1 = "x" ∨ m.1 = "y" ∨ m.1 = "d" → Base64Url.IsNumber m.2

/-- Two objects have the same public numbers, whatever their widths are. -/
def SamePublic (o o' : Object) : Curve → Prop
  | .p256 => ∀ name ∈ ["x", "y"], ∃ a b, number o name = .ok a ∧ number o' name = .ok b ∧
      a.toNat % Crypto.P256.prime = b.toNat % Crypto.P256.prime
  | .ed25519 => ∃ a, number o "x" = .ok a ∧ number o' "x" = .ok a

theorem point_eq_ok_iff {x y : Bytes} {key : Crypto.P256.PublicKey} :
    point x y = .ok key ↔
      key.x = x.toNat % Crypto.P256.prime ∧ key.y = y.toNat % Crypto.P256.prime := by
  rw [← Crypto.P256.PublicKey.of?_eq_some_iff]
  unfold point
  constructor
  · intro h
    split at h
    · rename_i k hk
      rwa [← Except.ok.inj h]
    · cases h
  · intro h
    simp only [h]

/-- The members of a public key of the curve. -/
def Curve.publicNames : Curve → List String
  | p256 => ["kty", "crv", "x", "y"]
  | ed25519 => ["kty", "crv", "x"]

/-- The algorithm of private keys of the curve. -/
def Curve.algorithm : Curve → String
  | p256 => "ES256"
  | ed25519 => "EdDSA"

end Jwk

/-- What a library for signatures does with objects of keys: those of full width are read, and the object
of a key that was read is given as it was. -/
structure KeyLibrary.ReadsKeys (l : KeyLibrary) : Prop where
  publicKey : ∀ {o key}, PublicKey.SaidBy o key → Jwk.FullWidth o → Object.get? o "d" = none →
    ∃ k, l.read key.curve o = .ok k
  privateKey : ∀ {o key}, PrivateKey.SaidBy o key → PublicKey.SaidBy o key.publicKey →
    Jwk.FullWidth o → ∃ k, l.read key.curve o = .ok k
  write : ∀ {c o k}, l.read c o = .ok k → l.write k = o

/-- The curve of the key in an object, which is a private one if there is a secret number. -/
def Jwk.keyCurve (o : Object) : Except KeyError Curve :=
  if o.contains "d" then (PrivateKey.ofJwk (.object o)).map PrivateKey.curve
  else (PublicKey.ofJwk (.object o)).map PublicKey.curve

/-- A library that keeps the objects of keys, having read the keys in them. -/
def KeyLibrary.keeping : KeyLibrary where
  Key := Object
  read c o := do if (← Jwk.keyCurve o) = c then return o else throw .invalid
  write o := o

theorem KeyLibrary.keeping_read_eq_ok_iff {c : Jwk.Curve} {o k : Object} :
    keeping.read c o = .ok k ↔ Jwk.keyCurve o = .ok c ∧ k = o := by
  refine Except.bind_eq_ok_iff.trans ?_
  constructor
  · rintro ⟨found, hfound, h⟩
    split at h
    · rename_i hcurve
      exact ⟨hcurve ▸ hfound, (Except.ok.inj h).symm⟩
    · cases h
  · rintro ⟨hcurve, rfl⟩
    exact ⟨c, hcurve, if_pos rfl⟩

theorem Jwk.contains_of_number {o : Object} {name : String} {bytes : Bytes}
    (h : number o name = .ok bytes) : o.contains name = true := by
  unfold number at h
  unfold Object.contains
  split at h
  · cases h
  · rename_i v hv
    rw [hv]
    rfl

theorem PrivateKey.SaidBy.contains_secret {o : Object} {key : PrivateKey} (h : SaidBy o key) :
    o.contains "d" = true := by
  cases h with
  | p256 _ _ _ hd => exact Jwk.contains_of_number hd
  | ed25519 _ hd => exact Jwk.contains_of_number hd

theorem KeyLibrary.readsKeys_keeping : keeping.ReadsKeys where
  publicKey := by
    intro o key hkey _ hnone
    have habsent : ¬o.contains "d" = true := by simp [Object.contains, hnone]
    refine ⟨o, keeping_read_eq_ok_iff.mpr ⟨(if_neg habsent).trans ?_, rfl⟩⟩
    exact Except.map_eq_ok_iff.mpr ⟨key, PublicKey.ofJwk_eq_ok_iff.mpr ⟨o, rfl, hkey⟩, rfl⟩
  privateKey := by
    intro o key hkey _ _
    refine ⟨o, keeping_read_eq_ok_iff.mpr ⟨(if_pos hkey.contains_secret).trans ?_, rfl⟩⟩
    exact Except.map_eq_ok_iff.mpr ⟨key, PrivateKey.ofJwk_eq_ok_iff.mpr ⟨o, rfl, hkey⟩, rfl⟩
  write h := (keeping_read_eq_ok_iff.mp h).2

/-- The object of a public key has all that it should. -/
structure PublicKey.Exported (l : KeyLibrary) (key : PublicKey) (o : Object) : Prop where
  written : key.toJwk = o
  readBack : ofJwk (.object o) = .ok key
  names : o.names = key.curve.publicNames
  width : Jwk.FullWidth o
  imported : ∃ k, l.importPublic (.key key) = .ok k ∧ l.write k = o

/-- A private key is written, and its object has all that it should. -/
structure PrivateKey.Exported (l : KeyLibrary) (key : PrivateKey) (o : Object) : Prop where
  written : key.toJwk = .ok o
  readBack : ofJwk (.object o) = .ok key
  algorithm : ∀ r ecdsa id kid, Signer.ofJwk r ecdsa id (.object o) kid =
    .ok ⟨id, kid, .text key.curve.algorithm, Signer.signWith r ecdsa (.key key)⟩
  names : o.names = key.curve.publicNames ++ ["d"]
  width : Jwk.FullWidth o
  imported : ∃ k, l.importPrivate (.key key) = .ok k ∧ l.write k = o

namespace PublicKey

theorem saidBy_toJwk (key : PublicKey) : SaidBy key.toJwk key := by
  obtain ⟨o, ho, hkey⟩ := ofJwk_eq_ok_iff.mp (ofJwk_toJwk key)
  rwa [Value.object.inj ho]

theorem names_toJwk (key : PublicKey) : key.toJwk.names = key.curve.publicNames := by
  cases key <;> rfl

theorem fullWidth_toJwk (key : PublicKey) : Jwk.FullWidth key.toJwk := by
  cases key with
  | p256 key =>
    simp [Jwk.FullWidth, toJwk, Base64Url.isNumber_text, Bytes.length_ofNat]
  | ed25519 key => simp [Jwk.FullWidth, toJwk, Base64Url.isNumber_text, key.length_eq]

theorem SaidBy.samePublic {o : Object} {key : PublicKey} (h : SaidBy o key) :
    Jwk.SamePublic o key.toJwk key.curve := by
  cases h with
  | @p256 x y key _ hx hy hpoint =>
    obtain ⟨hkx, hky⟩ := Jwk.point_eq_ok_iff.mp hpoint
    have hxmod : x.toNat % Crypto.P256.prime = Bytes.toNat (Bytes.ofNat 32 key.x) % Crypto.P256.prime := by
      rw [key.toNat_x, hkx, Nat.mod_mod]
    have hymod : y.toNat % Crypto.P256.prime = Bytes.toNat (Bytes.ofNat 32 key.y) % Crypto.P256.prime := by
      rw [key.toNat_y, hky, Nat.mod_mod]
    intro name hname
    rcases List.mem_pair.mp hname with rfl | rfl
    · exact ⟨x, _, hx, Base64Url.ofValue_text _, hxmod⟩
    · exact ⟨y, _, hy, Base64Url.ofValue_text _, hymod⟩
  | ed25519 _ hx => exact ⟨_, hx, Base64Url.ofValue_text _⟩

theorem exported {l : KeyLibrary} (hl : l.ReadsKeys) (key : PublicKey) :
    key.Exported l key.toJwk where
  written := rfl
  readBack := ofJwk_toJwk key
  names := names_toJwk key
  width := fullWidth_toJwk key
  imported := by
    have hnone : Object.get? key.toJwk "d" = none := by cases key <;> rfl
    obtain ⟨k, hk⟩ := hl.publicKey key.saidBy_toJwk key.fullWidth_toJwk hnone
    exact ⟨k, hk, hl.write hk⟩

end PublicKey

namespace PrivateKey

/-- The secret number of the key has the width of all numbers. -/
def Fits : PrivateKey → Prop
  | p256 key => key.scalar < 2 ^ 256
  | ed25519 _ => True

/-- The bytes of the secret number of a key. -/
def secret : PrivateKey → Bytes
  | p256 key => Bytes.ofNat 32 key.scalar
  | ed25519 key => key.seed

/-- The object of the public key, and the secret number. -/
def withSecret (key : PrivateKey) : Object :=
  key.publicKey.toJwk ++ [("d", .text (Base64Url.text key.secret))]

theorem toJwk_eq_ok_iff {key : PrivateKey} {o : Object} :
    key.toJwk = .ok o ↔ key.Fits ∧ o = key.withSecret := by
  cases key with
  | p256 key =>
    show (if _ then _ else _) = _ ↔ key.scalar < 2 ^ 256 ∧ _
    split
    · rename_i hfits
      exact ⟨fun h => ⟨hfits, (Except.ok.inj h).symm⟩, fun h => congrArg Except.ok h.2.symm⟩
    · rename_i hlarge
      exact ⟨fun h => (nomatch h), fun h => absurd h.1 hlarge⟩
  | ed25519 key =>
    exact ⟨fun h => ⟨trivial, (Except.ok.inj h).symm⟩, fun h => congrArg Except.ok h.2.symm⟩

theorem toJwk_of_not_fits {key : PrivateKey} (h : ¬key.Fits) : key.toJwk = .error .tooBig := by
  cases key with
  | p256 key => exact if_neg h
  | ed25519 key => exact absurd trivial h

theorem length_secret (key : PrivateKey) : key.secret.length = 32 := by
  cases key with
  | p256 key => exact Bytes.length_ofNat 32 key.scalar
  | ed25519 key => exact key.length_eq

theorem fullWidth_withSecret (key : PrivateKey) : Jwk.FullWidth key.withSecret := by
  refine List.forall_mem_append.mpr ⟨key.publicKey.fullWidth_toJwk, ?_⟩
  intro m hm _
  obtain rfl := List.mem_singleton.mp hm
  exact Base64Url.isNumber_text key.length_secret

theorem names_withSecret (key : PrivateKey) :
    key.withSecret.names = key.curve.publicNames ++ ["d"] := by
  rw [withSecret, Object.names, List.map_append]
  exact congrArg (· ++ ["d"]) key.publicKey.names_toJwk

/-- The secret number plays no part when the public key is read. -/
theorem publicKey_saidBy_withSecret (key : PrivateKey) :
    PublicKey.SaidBy key.withSecret key.publicKey := by
  cases key with
  | p256 key =>
    exact .p256 rfl (Base64Url.ofValue_text _) (Base64Url.ofValue_text _) (PublicKey.point_self _)
  | ed25519 key => exact .ed25519 rfl (Base64Url.ofValue_text _)

theorem saidBy_withSecret {key : PrivateKey} (h : key.Fits) : SaidBy key.withSecret key := by
  cases key with
  | p256 key =>
    have hscalar : Bytes.toNat (Bytes.ofNat 32 key.scalar) = key.scalar := Bytes.toNat_ofNat h
    exact .p256 rfl (Base64Url.ofValue_text _) (Base64Url.ofValue_text _)
      (Base64Url.ofValue_text _) (PublicKey.point_self _) hscalar.symm
  | ed25519 key => exact .ed25519 rfl (Base64Url.ofValue_text _)

theorem algorithm_eq (key : PrivateKey) : key.algorithm = key.curve.algorithm := by
  cases key <;> rfl

theorem exported {l : KeyLibrary} (hl : l.ReadsKeys) {key : PrivateKey} (h : key.Fits) :
    key.Exported l key.withSecret := by
  have hwritten : key.toJwk = .ok key.withSecret := toJwk_eq_ok_iff.mpr ⟨h, rfl⟩
  have hread : ofJwk (.object key.withSecret) = .ok key :=
    ofJwk_eq_ok_iff.mpr ⟨_, rfl, saidBy_withSecret h⟩
  refine ⟨hwritten, hread, fun r ecdsa id kid => ?_, key.names_withSecret, key.fullWidth_withSecret, ?_⟩
  · rw [← algorithm_eq]
    exact Signer.ofJwk_eq_ok_iff.mpr ⟨key, hread, rfl⟩
  · obtain ⟨k, hk⟩ := hl.privateKey (saidBy_withSecret h) key.publicKey_saidBy_withSecret
      key.fullWidth_withSecret
    refine ⟨k, Except.bind_eq_ok_iff.mpr ⟨key, rfl, ?_⟩, hl.write hk⟩
    exact Except.bind_eq_ok_iff.mpr ⟨_, hwritten, hk⟩

theorem importPrivate_of_not_fits (l : KeyLibrary) {key : PrivateKey} (h : ¬key.Fits) :
    l.importPrivate (.key key) = .error .tooBig :=
  Except.bind_eq_error_iff.mpr (.inr ⟨key, rfl,
    Except.bind_eq_error_iff.mpr (.inl (toJwk_of_not_fits h))⟩)

theorem fits_of_lt_order {key : Crypto.P256.PrivateKey} (h : key.scalar < Crypto.P256.order) :
    Fits (.p256 key) :=
  Nat.lt_trans h (by decide)

/-- A key that was read does not fit exactly if its object has a larger number. -/
theorem not_fits_iff_of_ofJwk {o : Object} {key : PrivateKey} (h : ofJwk (.object o) = .ok key) :
    ¬key.Fits ↔ key.curve = .p256 ∧ ∃ d, Jwk.number o "d" = .ok d ∧ 2 ^ 256 ≤ d.toNat := by
  obtain ⟨_, ⟨⟩, hkey⟩ := ofJwk_eq_ok_iff.mp h
  cases hkey with
  | ed25519 _ hd => exact ⟨fun hno => absurd trivial hno, nofun⟩
  | @p256 _ _ d _ _ _ _ hd _ hscalar =>
    rw [Fits, hscalar, Nat.not_lt]
    constructor
    · exact fun hlarge => ⟨rfl, d, hd, hlarge⟩
    · rintro ⟨-, d', hd', hlarge⟩
      rwa [Except.ok.inj (hd.symm.trans hd')]

end PrivateKey

/-- What is written for keys. Every private key has an object, with numbers of full width, that is read as
the key, also by the library, and gives its algorithm, unless the secret number is too large; then
nothing is written. Every public key has such an object, also one that was read from an object with other
widths, whose numbers are kept. -/
theorem KeyLibrary.export_import (l : KeyLibrary) (hl : l.ReadsKeys) :
    (∀ key : PrivateKey, (∃ o, key.Exported l o) ↔ key.Fits) ∧
      (∀ key : Crypto.P256.PrivateKey, key.scalar < Crypto.P256.order →
        ∃ o, (PrivateKey.p256 key).Exported l o) ∧
      (∀ key : PrivateKey, ¬key.Fits →
        key.toJwk = .error .tooBig ∧ l.importPrivate (.key key) = .error .tooBig) ∧
      (∀ o key, PrivateKey.ofJwk (.object o) = .ok key →
        (¬key.Fits ↔ key.curve = .p256 ∧ ∃ d, Jwk.number o "d" = .ok d ∧ 2 ^ 256 ≤ d.toNat)) ∧
      (∀ key : PublicKey, ∃ o, key.Exported l o) ∧
      ∀ o key, PublicKey.ofJwk (.object o) = .ok key → Jwk.SamePublic o key.toJwk key.curve ∧
        ∃ again, PublicKey.ofJwk (.object key.toJwk) = .ok again ∧ again = key ∧
          again.toJwk = key.toJwk := by
  refine ⟨fun key => ⟨?_, fun hfits => ⟨_, PrivateKey.exported hl hfits⟩⟩, fun key horder => ?_,
    fun key hlarge => ?_, fun o key => PrivateKey.not_fits_iff_of_ofJwk,
    fun key => ⟨_, PublicKey.exported hl key⟩, fun o key hread => ⟨?_, key, ?_, rfl, rfl⟩⟩
  · rintro ⟨o, hexported⟩
    exact (PrivateKey.toJwk_eq_ok_iff.mp hexported.written).1
  · exact ⟨_, PrivateKey.exported hl (PrivateKey.fits_of_lt_order horder)⟩
  · exact ⟨PrivateKey.toJwk_of_not_fits hlarge, PrivateKey.importPrivate_of_not_fits l hlarge⟩
  · obtain ⟨_, ⟨⟩, hkey⟩ := PublicKey.ofJwk_eq_ok_iff.mp hread
    exact hkey.samePublic
  · exact PublicKey.ofJwk_toJwk key

/-- An object of the base point, with a zero in front of one of its numbers. -/
def Jwk.padded : Object :=
  [("kty", .text "EC"), ("crv", .text "P-256"),
    ("x", .text "AGsX0fLhLEJH-Lzm5WOkQPJ3A32BLeszoPShOUXYmMKW"),
    ("y", .text "T-NC4v4af5uO5-tKfA-eFivOM1drMV7Oy7ZAaDe_UfU")]

theorem KeyLibrary.export_import_one :
    keeping.ReadsKeys ∧ (∃ o, (PrivateKey.p256 .one).Exported keeping o) ∧
      PublicKey.ofJwk (.object Jwk.padded) = .ok (.p256 .base) ∧
      Jwk.SamePublic Jwk.padded (PublicKey.p256 .base).toJwk .p256 := by
  obtain ⟨-, horder, -, -, -, hagain⟩ := export_import keeping readsKeys_keeping
  have hread : PublicKey.ofJwk (.object Jwk.padded) = .ok (.p256 .base) :=
    Except.toOption_eq_some_iff.mp (by decide +kernel)
  exact ⟨readsKeys_keeping, horder .one (by decide +kernel), hread, (hagain _ _ hread).1⟩

/-- The private key `wide` is read from an object with 33 bytes as its secret number, and is not
written. -/
theorem PrivateKey.wide_not_written :
    ofJwk (.object [("kty", .text "EC"), ("crv", .text "P-256"),
      ("x", .text "axfR8uEsQkf4vOblY6RA8ncDfYEt6zOg9KE5RdiYwpY"),
      ("y", .text "T-NC4v4af5uO5-tKfA-eFivOM1drMV7Oy7ZAaDe_UfU"),
      ("d", .text "Af____4AAAAB__________95zfVbTi89CedzlYX4xkqj")]) = .ok (.p256 .wide) ∧
    toJwk (.p256 .wide) = .error .tooBig := by
  have hlarge : ¬1 + 2 * Crypto.P256.order < 2 ^ 256 := by decide
  exact ⟨Except.toOption_eq_some_iff.mp (by decide +kernel), toJwk_of_not_fits hlarge⟩

end Attest
