import Attest.Proofs.Key.Export
import Attest.Proofs.Token.Covered
import Attest.Proofs.Token.RoundTrip

/-! A private and a public key that are read from one object. For P-256 the secret number has to belong to
the point. For Ed25519 the private key is made from one number and the public key from the other, and
nothing compares them. -/

namespace Attest

theorem Jwk.number_set_of_ne {o : Object} {name other : String} {v : Value} (h : other ≠ name) :
    number (o.set name v) other = number o other := by
  rw [number, number, Object.get?_set_of_ne h]

theorem Jwk.curve_set_of_ne {o : Object} {name : String} {v : Value} (hkty : "kty" ≠ name)
    (hcrv : "crv" ≠ name) : curve (o.set name v) = curve o := by
  simp only [curve, Object.getD, Object.get?_set_of_ne hkty, Object.get?_set_of_ne hcrv]

theorem PublicKey.SaidBy.unique {o : Object} {key key' : PublicKey} (h : SaidBy o key)
    (h' : SaidBy o key') : key = key' := by
  have hread : ofJwk (.object o) = .ok key := ofJwk_eq_ok_iff.mpr ⟨o, rfl, h⟩
  have hread' : ofJwk (.object o) = .ok key' := ofJwk_eq_ok_iff.mpr ⟨o, rfl, h'⟩
  exact Except.ok.inj (hread.symm.trans hread')

namespace PrivateKey.SaidBy

variable {o : Object}

/-- The object of a private key of P-256 says what its public key is. -/
theorem publicKey_p256 {key : Crypto.P256.PrivateKey} (h : SaidBy o (.p256 key)) :
    PublicKey.SaidBy o (.p256 key.publicKey) := by
  cases h with
  | p256 hcurve hx hy _ hpoint _ => exact .p256 hcurve hx hy hpoint

/-- The keys of one object belong together, unless an Ed25519 key has another public number. -/
theorem publicKey_eq_iff {key : PrivateKey} {publicKey : PublicKey} (h : SaidBy o key)
    (hpublic : PublicKey.SaidBy o publicKey) :
    key.publicKey = publicKey ↔
      key.curve = .p256 ∨ Jwk.number o "x" = .ok (DidKey.keyBytes key.publicKey) := by
  cases key with
  | p256 key => exact ⟨fun _ => .inl rfl, fun _ => h.publicKey_p256.unique hpublic⟩
  | ed25519 key =>
    cases h with
    | ed25519 hcurve hd =>
      constructor
      · rintro rfl
        cases hpublic with
        | ed25519 _ hx => exact .inr hx
      · rintro (hother | hown)
        · cases hother
        · exact PublicKey.SaidBy.unique (.ed25519 hcurve hown) hpublic

end PrivateKey.SaidBy

/-- What stands for the public number of an Ed25519 key plays no part when the private key is read. -/
theorem PrivateKey.ofJwk_set_public {o : Object} (h : Jwk.curve o = .ok .ed25519) (v : Value) :
    ofJwk (.object (o.set "x" v)) = ofJwk (.object o) := by
  have hcurve : Jwk.curve (o.set "x" v) = .ok .ed25519 :=
    (Jwk.curve_set_of_ne (by decide) (by decide)).trans h
  have hsecret : Jwk.number (o.set "x" v) "d" = Jwk.number o "d" :=
    Jwk.number_set_of_ne (by decide)
  unfold ofJwk
  show (Jwk.curve _ >>= _) = (Jwk.curve _ >>= _)
  rw [hcurve, h]
  show (Jwk.number _ "d" >>= _) = (Jwk.number _ "d" >>= _)
  rw [hsecret]

/-- The keys that are read from an object, also by who signs and who verifies, belong together exactly if
they are keys of P-256, or the public number is the one of the private key. A secret number of P-256 that
does not belong to the point is refused. A private Ed25519 key is read, or refused, with any value for
its public number alike. -/
theorem PrivateKey.pair_iff (r : Jws.Registry) (ecdsa : Crypto.P256.Signatures) (o : Object) :
    (∀ key publicKey, ofJwk (.object o) = .ok key → PublicKey.ofJwk (.object o) = .ok publicKey →
      (key.publicKey = publicKey ↔
        key.curve = .p256 ∨ Jwk.number o "x" = .ok (DidKey.keyBytes key.publicKey))) ∧
      (∀ id kid id' kid' signer verifier, Signer.ofJwk r ecdsa id (.object o) kid = .ok signer →
        Verifier.ofJwk r id' (.object o) kid' = .ok verifier → ∃ key publicKey,
          ofJwk (.object o) = .ok key ∧ PublicKey.ofJwk (.object o) = .ok publicKey ∧
          signer = ⟨id, kid, .text key.algorithm, Signer.signWith r ecdsa (.key key)⟩ ∧
          verifier = .ofKey r id' (.key publicKey) kid') ∧
      (∀ publicKey d, PublicKey.ofJwk (.object o) = .ok (.p256 publicKey) →
        Jwk.number o "d" = .ok d → Crypto.P256.PublicKey.ofScalar? d.toNat ≠ some publicKey →
        ofJwk (.object o) = .error .invalid) ∧
      (Jwk.curve o = .ok .ed25519 → ∀ v, ofJwk (.object (o.set "x" v)) = ofJwk (.object o)) := by
  refine ⟨fun key publicKey h hpublic => ?_, fun id kid id' kid' signer verifier hs hv => ?_,
    fun publicKey d hpublic hd hother => ?_, ofJwk_set_public⟩
  · obtain ⟨_, ⟨⟩, hkey⟩ := ofJwk_eq_ok_iff.mp h
    obtain ⟨_, ⟨⟩, hpublicKey⟩ := PublicKey.ofJwk_eq_ok_iff.mp hpublic
    exact hkey.publicKey_eq_iff hpublicKey
  · obtain ⟨key, hkey, hsigner⟩ := Signer.ofJwk_eq_ok_iff.mp hs
    obtain ⟨publicKey, hpublic, hverifier⟩ := Verifier.ofJwk_eq_ok_iff.mp hv
    exact ⟨key, publicKey, hkey, hpublic, hsigner, hverifier⟩
  · obtain ⟨_, ⟨⟩, hsaid⟩ := PublicKey.ofJwk_eq_ok_iff.mp hpublic
    exact ofJwk_of_mismatch hsaid hd hother

/-- The key of the zero seed is read from its object, also if nothing stands for its public number. The
base point is refused with the secret number 2. -/
theorem PrivateKey.pair_zeroSeed :
    Jwk.number Signer.zeroPrivateKey.withSecret "x" =
        .ok (DidKey.keyBytes Signer.zeroPrivateKey.publicKey) ∧
      ofJwk (.object (Signer.zeroPrivateKey.withSecret.set "x" .null)) = .ok Signer.zeroPrivateKey ∧
      ofJwk (.object ((PublicKey.p256 .base).toJwk ++ [("d", .text "Ag")])) = .error .invalid := by
  obtain ⟨hagree, -, -, hignored⟩ := pair_iff [.edDsa] (.ofNonce 2) Signer.zeroPrivateKey.withSecret
  obtain ⟨-, -, hrefused, -⟩ :=
    pair_iff [.edDsa] (.ofNonce 2) ((PublicKey.p256 .base).toJwk ++ [("d", .text "Ag")])
  have hread : ofJwk (.object Signer.zeroPrivateKey.withSecret) = .ok Signer.zeroPrivateKey :=
    ofJwk_eq_ok_iff.mpr ⟨_, rfl, saidBy_withSecret trivial⟩
  have hpublic : PublicKey.ofJwk (.object Signer.zeroPrivateKey.withSecret) =
      .ok Signer.zeroPrivateKey.publicKey :=
    PublicKey.ofJwk_eq_ok_iff.mpr ⟨_, rfl, publicKey_saidBy_withSecret _⟩
  refine ⟨((hagree _ _ hread hpublic).mp rfl).resolve_left nofun,
    (hignored rfl .null).trans hread, hrefused .base [2] ?_ rfl (by decide +kernel)⟩
  exact Except.toOption_eq_some_iff.mp (by decide +kernel)

/-- An object of an Ed25519 key with zero for both of its numbers. -/
def Jwk.zeros : Object :=
  [("kty", .text "OKP"), ("crv", .text "Ed25519"),
    ("x", .text "AAAAAAAAAAAAAAAAAAAAAAAAAAAAAAAAAAAAAAAAAAA"),
    ("d", .text "AAAAAAAAAAAAAAAAAAAAAAAAAAAAAAAAAAAAAAAAAAA")]

/-- Two keys are read from this object that do not belong together. -/
theorem PrivateKey.no_pair_zeros :
    ∃ key publicKey, ofJwk (.object Jwk.zeros) = .ok key ∧
      PublicKey.ofJwk (.object Jwk.zeros) = .ok publicKey ∧ key.publicKey ≠ publicKey := by
  refine ⟨Signer.zeroPrivateKey, .ed25519 ⟨List.replicate 32 0, List.length_replicate⟩,
    Except.toOption_eq_some_iff.mp (by decide +kernel),
    Except.toOption_eq_some_iff.mp (by decide +kernel), by decide +kernel⟩

end Attest
