import Attest.Proofs.Key.Accepted
import Attest.Proofs.Resolution.Finished
import Attest.Proofs.Resolution.Key
import Attest.Proofs.Resolution.Lookup

/-! Every text as an identifier of a key. The resolver of such identifiers fails to resolve it, or gives
a document with one method, which holds the key and is found by its whole name and by its fragment. -/

namespace Attest

/-- The members of an object are among those that anybody may know of a key. -/
def Object.IsPublicJwk (o : Object) : Prop := ∀ member ∈ o, member.1 ∈ ["kty", "crv", "x", "y"]

theorem PublicKey.isPublicJwk_toJwk (key : PublicKey) : Object.IsPublicJwk key.toJwk := by
  cases key <;> simp [Object.IsPublicJwk, toJwk]

/-- The document of an identifier, which is the scheme and one part, has one method. This belongs to the
identifier and holds a key and nothing private, and it is found by its name and by the part after a
number sign, and by no other text. -/
structure Document.HoldsOnly (d : Document) (did part : String) (m : VerificationMethod)
    (key : PublicKey) : Prop where
  did_eq : did = DidKey.scheme ++ part
  id : d.id = .text did
  methods : d.methods = [m]
  controller : m.controller = .text did
  methodId : m.id = .text (did ++ "#" ++ part)
  key : PublicKey.ofJwk m.publicKeyJwk = .ok key
  isPublic : ∃ jwk, m.publicKeyJwk = .object jwk ∧ Object.IsPublicJwk jwk
  found : ∀ name, d.method? (.text name) = .ok (some m) ↔
    name = did ++ "#" ++ part ∨ name = "#" ++ part
  notFound : ∀ name, d.method? (.text name) = .ok none ↔
    ¬(name = did ++ "#" ++ part ∨ name = "#" ++ part)

namespace DidKey

/-- A name with one number sign ends in no other fragment than the one after it. -/
theorem eq_of_append_fragment {base part front rest : String} (hbase : ∀ c ∈ base.toList, c ≠ '#')
    (hpart : ∀ c ∈ part.toList, c ≠ '#') (h : base ++ "#" ++ part = front ++ ("#" ++ rest)) :
    rest = part := by
  have hchars := congrArg String.toList h
  simp only [String.toList_append, List.append_assoc] at hchars
  change base.toList ++ '#' :: part.toList = front.toList ++ '#' :: rest.toList at hchars
  rw [List.append_cons_inj_of_notMem (fun hc => hbase '#' hc rfl) (fun hc => hpart '#' hc rfl)] at hchars
  exact String.toList_inj.mp hchars.2.2.symm

end DidKey

namespace PublicKey

variable {did part : String} {key : PublicKey}

theorem answers_method_iff (hdid : did = DidKey.scheme ++ part) (hpart : DidKey.IsPart part)
    {name : String} :
    (key.method did).Answers name ↔ name = did ++ "#" ++ part ∨ name = "#" ++ part := by
  have hid : (key.method did).id = .text (did ++ "#" ++ part) := by
    rw [hdid, ← DidKey.verificationMethod_scheme hpart]
    rfl
  have hbase : ∀ c ∈ did.toList, c ≠ '#' := by
    rw [hdid, ← DidKey.withoutFragment_scheme hpart]
    exact DidKey.ne_of_mem_withoutFragment
  unfold VerificationMethod.Answers
  rw [hid, Value.text.injEq, eq_comm (a := did ++ "#" ++ part)]
  refine or_congr_right ?_
  constructor
  · rintro ⟨hbegins, front, hends⟩
    obtain ⟨rest, rfl⟩ := Text.beginsWith_iff.mp hbegins
    rw [DidKey.eq_of_append_fragment hbase (fun c hc => (hpart c hc).1) (Value.text.inj hends)]
  · rintro rfl
    exact ⟨Text.beginsWith_append _ _, did, by rw [String.append_assoc]⟩

theorem holdsOnly_document (hdecode : DidKey.decode (DidKey.withoutFragment did) = .ok key) :
    ∃ part m, (key.document (DidKey.withoutFragment did)).HoldsOnly (DidKey.withoutFragment did)
      part m key := by
  obtain ⟨part, hdid, hpart⟩ := DidKey.exists_part_of_decode hdecode
  generalize DidKey.withoutFragment did = base at hdid
  have hids : ∀ m ∈ (key.document base).methods, m.id.isText = true := by
    intro m hm
    obtain rfl := List.mem_singleton.mp hm
    rfl
  have hanswers : ∀ name, (key.method base).Answers name ↔
      name = base ++ "#" ++ part ∨ name = "#" ++ part := fun _ => answers_method_iff hdid hpart
  refine ⟨part, key.method base,
    { did_eq := hdid
      id := rfl
      methods := rfl
      controller := rfl
      methodId := ?methodId
      key := ofJwk_toJwk key
      isPublic := ⟨key.toJwk, rfl, isPublicJwk_toJwk key⟩
      found := fun name => ?found
      notFound := fun name => ?notFound }⟩
  case methodId =>
    rw [hdid, ← DidKey.verificationMethod_scheme hpart]
    rfl
  case found =>
    rw [Document.method?_text_eq_some_iff hids, ← hanswers]
    exact and_iff_left ⟨[], [], rfl, nofun⟩
  case notFound =>
    rw [Document.method?_text_eq_none_iff hids, ← hanswers]
    exact List.forall_mem_singleton

theorem length_zeros : (List.replicate 32 (0 : UInt8)).length = 32 := List.length_replicate

/-- A key of which all bytes are zero. -/
def zeros : PublicKey := .ed25519 ⟨List.replicate 32 0, length_zeros⟩

end PublicKey

namespace Resolver

/-- While a context is open, the resolver of identifiers that are keys gives the document of the key for
every text that is accepted as one up to a number sign, and fails to resolve all others. -/
theorem resolves_exactly_keys {context : Option Context} {s : Session}
    (h : ∀ c, context = some c → c.IsOpen s) (did : String) :
    ∃ x t, ofKeys.resolve context (.text did) s = (x, t) ∧ (∀ e, x = .error e → e.kind = .resolution) ∧
      ((∃ document, x = .ok document) ↔
        ∃ key, DidKey.decode (DidKey.withoutFragment did) = .ok key) ∧
      ∀ document, x = .ok document → ∃ key, DidKey.decode (DidKey.withoutFragment did) = .ok key ∧
        ∃ part m, document.HoldsOnly (DidKey.withoutFragment did) part m key := by
  obtain ⟨u, hu⟩ := Context.checkSome_of_isOpen h
  rw [resolve_ofKeys_text hu]
  cases hdocument : keyDocument did with
  | error e =>
    refine ⟨_, _, rfl, ?_, ?_, nofun⟩
    · rintro _ ⟨⟩
      obtain rfl | ⟨k, rfl⟩ := keyDocument_eq_error hdocument
      · rfl
      · rfl
    · refine iff_of_false nofun ?_
      rintro ⟨key, hkey⟩
      cases hdocument.symm.trans (keyDocument_eq_ok_iff.mpr ⟨key, hkey, rfl⟩)
  | ok document =>
    obtain ⟨key, hkey, hkeyDocument⟩ := keyDocument_eq_ok_iff.mp hdocument
    refine ⟨_, _, rfl, nofun, iff_of_true ⟨_, rfl⟩ ⟨key, hkey⟩, ?_⟩
    rintro _ ⟨⟩
    rw [hkeyDocument]
    exact ⟨key, hkey, PublicKey.holdsOnly_document hkey⟩

theorem resolves_zeros : ∃ document t part m,
    ofKeys.resolve (some ⟨.int 1, false⟩) (.text (DidKey.encode PublicKey.zeros ++ "#" ++ "x"))
      ⟨⟨fun _ => .ok (.int 0), 0⟩, [], []⟩ = (.ok document, t) ∧
    document.HoldsOnly (DidKey.encode PublicKey.zeros) part m PublicKey.zeros := by
  have hbase : DidKey.withoutFragment (DidKey.encode PublicKey.zeros ++ "#" ++ "x") =
      DidKey.encode PublicKey.zeros := by
    refine DidKey.withoutFragment_append ?_ "x"
    rw [← DidKey.withoutFragment_encode]
    exact DidKey.ne_of_mem_withoutFragment
  have hopen : ∀ c, some (⟨.int 1, false⟩ : Context) = some c →
      c.IsOpen ⟨⟨fun _ => .ok (.int 0), 0⟩, [], []⟩ := by
    have hbefore : (Number.int 1).le (.int 0) = false := Number.int_le_int 1 0
    rintro _ ⟨⟩
    exact ⟨rfl, _, hbefore ▸ Context.expired_of_reading (x := .int 0) rfl rfl⟩
  obtain ⟨x, t, hresolve, -, hexists, hholds⟩ :=
    resolves_exactly_keys hopen (DidKey.encode PublicKey.zeros ++ "#" ++ "x")
  rw [hbase] at hexists hholds
  obtain ⟨document, rfl⟩ := hexists.mpr ⟨_, DidKey.decode_encode PublicKey.zeros⟩
  obtain ⟨key, hkey, part, m, h⟩ := hholds document rfl
  obtain rfl := Except.ok.inj ((DidKey.decode_encode PublicKey.zeros).symm.trans hkey)
  exact ⟨document, t, part, m, hresolve, h⟩

end Resolver

end Attest
