import Attest.Json.Bytes
import Attest.Proofs.Json.Values
import Attest.Proofs.Text.Ascii

/-! JSON documents as bytes. The bytes of an object begin with a brace and a quote or another brace,
from which UTF-8 is found out, and so an object is read back from its bytes; in the style for headers
these are bytes of ASCII. -/

namespace Attest

open Text

theorem Numeral.isAscii_chars {n : Numeral} (hn : n.Regular) : IsAscii n.chars := by
  obtain ⟨negative, whole, fraction, exponent⟩ := n
  have digits {ds : List Char} (hds : IsDigits ds) : IsAscii ds :=
    fun c hc => isAscii_of_isDigit (hds.2 c hc)
  have hsign : IsAscii (if negative then ['-'] else []) := by
    cases negative
    · exact .nil
    · exact .cons (by decide) .nil
  have hfraction : IsAscii (fractionChars fraction) := by
    cases fraction with
    | none => exact .nil
    | some ds => exact .cons (by decide) (digits (hn.fraction ds rfl))
  have hexponent : IsAscii (exponentChars exponent) := by
    cases exponent with
    | none => exact .nil
    | some e =>
      obtain ⟨minus, ds⟩ := e
      refine .cons (by decide) (.cons ?_ (digits (hn.exponent _ rfl)))
      cases minus <;> decide
  exact hsign.append ((digits hn.whole).append (hfraction.append hexponent))

namespace Json

theorem isAscii_hexDigit {n : Nat} (h : n < 16) : (hexDigit n).toNat < 128 := by
  have hall : ∀ d : Fin 16, (hexDigit d).toNat < 128 := by decide
  exact hall ⟨n, h⟩

theorem isAscii_escapeUnit {n : Nat} (h : n < 0x10000) : IsAscii (escapeUnit n) := by
  rw [escapeUnit, hex_four h]
  exact .cons (by decide) <| .cons (by decide) <| .cons (isAscii_hexDigit (by omega)) <|
    .cons (isAscii_hexDigit (by omega)) <| .cons (isAscii_hexDigit (by omega)) <|
    .cons (isAscii_hexDigit (by omega)) .nil

theorem isAscii_escape (c : Char) : IsAscii (escape true c) := by
  have hunits : IsAscii ((utf16Units c).flatMap escapeUnit) := by
    intro d hd
    obtain ⟨n, hn, hmem⟩ := List.mem_flatMap.mp hd
    exact isAscii_escapeUnit (lt_of_mem_utf16Units hn) d hmem
  unfold escape
  repeat' split
  all_goals first
    | exact hunits
    | exact .cons (by decide) (.cons (by decide) .nil)
    | skip
  rename_i h
  simp only [Bool.true_and, Bool.or_eq_true, decide_eq_true_eq, not_or, Nat.not_lt] at h
  exact .cons (Nat.lt_of_le_of_lt h.2 (by decide)) .nil

theorem isAscii_stringChars (cs : List Char) : IsAscii (stringChars true cs) := by
  refine .append (.cons (by decide) fun d hd => ?_) (.cons (by decide) .nil)
  obtain ⟨c, -, hmem⟩ := List.mem_flatMap.mp hd
  exact isAscii_escape c d hmem

theorem isAscii_floatChars (x : Binary64) : IsAscii (floatChars x) := by
  cases x with
  | nan => exact by decide
  | infinity negative => cases negative <;> exact by decide
  | finite negative e f =>
    obtain ⟨n, hn, -, hchars, -⟩ := exists_numeral_floatChars negative e f
    rw [hchars]
    exact Numeral.isAscii_chars hn

mutual

theorem isAscii_chars : (v : Value) → IsAscii (chars .compactAscii v)
  | .null | .bool true | .bool false | .time _ | .credential _ => by
    rw [chars]
    exact by decide
  | .int i => by
    rw [chars, intChars_eq]
    exact Numeral.isAscii_chars (regular_intNumeral i)
  | .float x => by
    rw [chars]
    exact isAscii_floatChars x
  | .text s => by
    rw [chars]
    exact isAscii_stringChars _
  | .list [] | .object [] => by
    rw [chars]
    exact by decide
  | .list (v :: vs) => by
    rw [chars_list]
    exact .cons (by decide) ((isAscii_chars v).append (isAscii_itemChars vs))
  | .object ((name, v) :: ms) => by
    rw [chars_object]
    refine .cons (by decide) (.append ?_ (isAscii_memberChars ms))
    exact (isAscii_stringChars _).append (.append (by decide) (isAscii_chars v))

theorem isAscii_itemChars : (vs : List Value) → IsAscii (itemChars .compactAscii vs)
  | [] => by
    rw [itemChars]
    exact by decide
  | v :: vs => by
    rw [itemChars_cons]
    exact .append (by decide) ((isAscii_chars v).append (isAscii_itemChars vs))

theorem isAscii_memberChars : (ms : List (String × Value)) → IsAscii (memberChars .compactAscii ms)
  | [] => by
    rw [memberChars]
    exact by decide
  | (name, v) :: ms => by
    rw [memberChars_cons]
    refine .append (by decide) (.append ?_ (isAscii_memberChars ms))
    exact (isAscii_stringChars _).append (.append (by decide) (isAscii_chars v))

end

theorem write_eq_ok_iff {style : Style} {v : Value} {s : String} :
    write style v = .ok s ↔ Writable v ∧ s = String.ofList (chars style v) := by
  unfold write Writable
  cases writeError? v with
  | none => simp [eq_comm]
  | some e => simp

theorem chars_object_eq_cons_cons (style : Style) (o : Object) :
    ∃ c rest, chars style (.object o) = '{' :: c :: rest ∧ (c = '"' ∨ c = '}') := by
  cases o with
  | nil => exact ⟨'}', [], by rw [chars], .inr rfl⟩
  | cons m ms =>
    rw [chars_object]
    exact ⟨'"', _, rfl, .inl rfl⟩

theorem detect_of_brace {b : UInt8} (hb : b ≠ 0) (rest : Bytes) :
    Encoding.detect (0x7b :: b :: rest) = .utf8 0 := by
  have hzeros : Encoding.ofZeros (0x7b :: b :: rest) = .utf8 0 := by
    unfold Encoding.ofZeros
    split
    · rename_i h
      cases h
      simp [hb]
    · rename_i h
      cases h
      simp [hb]
    · rfl
  rw [← hzeros]
  rfl

/-- An object is read back from the bytes of its text. -/
theorem readBytes_object {style : Style} (hstyle : style.Readable) {o : Object}
    (hwell : (Value.object o).WellFormed) (hwrite : Writable (.object o)) :
    readBytes digitLimit (Utf8.encode (chars style (.object o))) = .ok (.object o) := by
  obtain ⟨c, rest, hchars, hc⟩ := chars_object_eq_cons_cons style o
  have hbytes : ∃ b bytes, b ≠ 0 ∧ Utf8.encode (chars style (.object o)) = 0x7b :: b :: bytes := by
    rw [hchars]
    rcases hc with rfl | rfl
    · exact ⟨0x22, Utf8.encode rest, by decide, rfl⟩
    · exact ⟨0x7d, Utf8.encode rest, by decide, rfl⟩
  obtain ⟨b, bytes, hb, hbytes⟩ := hbytes
  -- Neither of the two bytes is zero, which speaks against UTF-16 and UTF-32.
  have hdetect : Encoding.detect (Utf8.encode (chars style (.object o))) = .utf8 0 := by
    rw [hbytes, detect_of_brace hb]
  have hdecode : Encoding.decode (Utf8.encode (chars style (.object o))) (.utf8 0) =
      .ok (chars style (.object o)) := Utf8.decode_encode _
  simp only [readBytes, hdetect, hdecode, readText_chars hstyle hwell hwrite]

end Json

end Attest
