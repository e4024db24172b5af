import Attest.Proofs.Calendar.Fraction
import Attest.Proofs.Claims.DateRange
import Attest.Proofs.Claims.Dates
import Attest.Proofs.Text.Utf8

/-! Texts of dates with a fraction of a second. Without the fraction the text is read as the same date, to
the second. -/

namespace Attest

namespace Text.Utf8

theorem encode_append (cs ds : List Char) : encode (cs ++ ds) = encode cs ++ encode ds :=
  List.flatMap_append

theorem characterLength_of_toNat {b : UInt8} {n : Nat} (h : b.toNat = n) :
    Iso8601.characterLength b =
      if n < 0x80 then 1 else if n < 0xe0 then 2 else if n < 0xf0 then 3 else 4 := by
  subst h
  simp only [Iso8601.characterLength, UInt8.lt_iff_toNat_lt]
  rfl

/-- The first byte of a character tells how many there are. -/
theorem exists_encodeChar_eq (c : Char) : ∃ b more, String.utf8EncodeChar c = b :: more ∧
    more.length = Iso8601.characterLength b - 1 := by
  have hvalid := toNat_lt c
  rw [utf8EncodeChar_eq]
  generalize c.toNat = n at hvalid
  unfold characterBytes
  split
  · refine ⟨_, _, rfl, ?_⟩
    rw [characterLength_of_toNat (toNat_byte (by omega)), if_pos (by omega)]
    rfl
  split
  · refine ⟨_, _, rfl, ?_⟩
    rw [characterLength_of_toNat (toNat_byte (by omega)), if_neg (by omega), if_pos (by omega)]
    rfl
  split
  · refine ⟨_, _, rfl, ?_⟩
    rw [characterLength_of_toNat (toNat_byte (by omega)), if_neg (by omega), if_neg (by omega),
      if_pos (by omega)]
    rfl
  · refine ⟨_, _, rfl, ?_⟩
    rw [characterLength_of_toNat (toNat_byte (by omega)), if_neg (by omega), if_neg (by omega),
      if_neg (by omega)]
    rfl

end Text.Utf8

namespace Claims

/-- A text that gives a day and, after any one character, a time with a fraction of a second, and perhaps
an offset. The fields of the time have two digits each, with colons in between or without. -/
structure FractionalText where
  day : List Char
  separator : Char
  colons : Bool
  fields : List Nat
  point : Char
  digits : List Char
  zone : List Char
  hasFields : fields ≠ []
  fields_le : fields.length ≤ 3
  fields_lt : ∀ n ∈ fields, n < 100
  isPoint : point = '.' ∨ point = ','
  hasDigits : digits ≠ []
  isDigits : ∀ c ∈ digits, c.isDigit = true
  isZone : zone = [] ∨ zone = ['z'] ∨ ∃ sign rest, zone = sign :: rest ∧ sign ∈ ['+', '-', 'Z']

namespace FractionalText

variable (f : FractionalText)

/-- The day, the character after it, and the time of day without its fraction. -/
def front : List Char := f.day ++ f.separator :: Iso8601.joined f.colons f.fields

/-- The text with its fraction. -/
def chars : List Char := f.front ++ f.point :: f.digits ++ f.zone

/-- The text without its fraction. -/
def wholeChars : List Char := f.front ++ f.zone

end FractionalText

section Zulu

theorem expandZulu_concat_eq (cs : List Char) (z : Char) :
    expandZulu (cs ++ [z]) = cs ++ if z = 'Z' || z = 'z' then "+00:00".toList else [z] := by
  unfold expandZulu
  simp only [List.getLast?_concat, List.dropLast_concat]
  split <;> rfl

theorem expandZulu_append (cs : List Char) {c : Char} (hc : c.isDigit = true) (zone : List Char) :
    expandZulu (cs ++ [c] ++ zone) = cs ++ [c] ++ expandZulu zone := by
  rcases List.eq_nil_or_concat zone with rfl | ⟨before, z, rfl⟩
  · have hlast : (c = 'Z' || c = 'z') = false := by
      rw [Bool.or_eq_false_iff, decide_eq_false_iff_not, decide_eq_false_iff_not]
      constructor <;>
      · rintro rfl
        cases hc
    rw [List.append_nil, expandZulu_concat_eq, hlast]
    exact (List.append_nil _).symm
  · rw [List.concat_eq_append, ← List.append_assoc, expandZulu_concat_eq, expandZulu_concat_eq,
      List.append_assoc _ before]

/-- An offset begins with its sign also when it is expanded. -/
theorem exists_expandZulu_offset {sign : Char} (hsign : sign ∈ ['+', '-', 'Z']) (rest : List Char) :
    ∃ sign' rest', sign' ∈ ['+', '-', 'Z'] ∧ expandZulu (sign :: rest) = sign' :: rest' := by
  rcases List.eq_nil_or_concat rest with rfl | ⟨before, z, rfl⟩
  · simp only [List.mem_cons, List.not_mem_nil, or_false] at hsign
    rcases hsign with rfl | rfl | rfl
    · exact ⟨'+', _, by decide, rfl⟩
    · exact ⟨'-', _, by decide, rfl⟩
    · exact ⟨'+', _, by decide, rfl⟩
  · rw [List.concat_eq_append, ← List.cons_append, expandZulu_concat_eq]
    exact ⟨sign, _, hsign, rfl⟩

theorem exists_joined_concat (colons : Bool) {fields : List Nat} (hfields : ∀ n ∈ fields, n < 100)
    (hne : fields ≠ []) :
    ∃ cs c, Iso8601.joined colons fields = cs ++ [c] ∧ c.isDigit = true := by
  induction fields with
  | nil => exact absurd rfl hne
  | cons n rest ih =>
    obtain ⟨hn, hrest⟩ := List.forall_mem_cons.mp hfields
    cases rest with
    | nil => exact DateTime.padded_eq_concat (by decide) hn
    | cons m rest =>
      obtain ⟨cs, c, htext, hc⟩ := ih hrest (List.cons_ne_nil _ _)
      unfold Iso8601.joined
      rw [htext]
      split
      · exact ⟨DateTime.padded 2 n ++ ':' :: cs, c, by simp, hc⟩
      · exact ⟨DateTime.padded 2 n ++ cs, c, by simp, hc⟩

end Zulu

namespace FractionalText

variable (f : FractionalText)

/-- The bytes of the offset, `Z` at the end being expanded. -/
def zoneBytes : Bytes := Text.Utf8.encode (expandZulu f.zone)

theorem isZone_zoneBytes : Iso8601.IsZone f.zoneBytes := by
  have hbyte : ∀ c ∈ ['+', '-', 'Z'], String.utf8EncodeChar c = [Iso8601.byte c] ∧
      Iso8601.beginsOffset (Iso8601.byte c) = true := by
    rintro c hc
    simp only [List.mem_cons, List.not_mem_nil, or_false] at hc
    rcases hc with rfl | rfl | rfl <;> decide
  have hsign (sign : Char) {rest : List Char} (h : sign ∈ ['+', '-', 'Z']) :
      Iso8601.IsZone (Text.Utf8.encode (sign :: rest)) := by
    obtain ⟨hencode, hbegins⟩ := hbyte sign h
    rw [Text.Utf8.encode, List.flatMap_cons, hencode]
    exact .offset hbegins _
  unfold zoneBytes
  rcases f.isZone with h | h | ⟨sign, rest, h, hmem⟩
  · rw [h]
    exact .none
  · rw [h]
    exact hsign '+' (by decide)
  · obtain ⟨sign', rest', hmem', h'⟩ := exists_expandZulu_offset hmem rest
    rw [h, h']
    exact hsign sign' hmem'

theorem expandZulu_chars :
    expandZulu f.chars = f.front ++ f.point :: f.digits ++ expandZulu f.zone := by
  obtain ⟨before, c, hdigits⟩ := (List.eq_nil_or_concat f.digits).resolve_left f.hasDigits
  have hc : c.isDigit = true := f.isDigits c (by simp [hdigits])
  have happend := expandZulu_append (f.front ++ f.point :: before) hc f.zone
  unfold chars
  rw [hdigits, List.concat_eq_append]
  simpa only [List.append_assoc, List.cons_append] using happend

theorem expandZulu_wholeChars : expandZulu f.wholeChars = f.front ++ expandZulu f.zone := by
  obtain ⟨cs, c, hjoined, hc⟩ := exists_joined_concat f.colons f.fields_lt f.hasFields
  have happend := expandZulu_append (f.day ++ f.separator :: cs) hc f.zone
  unfold wholeChars front
  rw [hjoined]
  simpa only [List.append_assoc, List.cons_append] using happend

theorem isAscii_joined (colons : Bool) (fields : List Nat) :
    Text.IsAscii (Iso8601.joined colons fields) := by
  induction fields with
  | nil => exact .nil
  | cons n rest ih =>
    cases rest with
    | nil => exact DateTime.isAscii_padded 2 n
    | cons m rest =>
      unfold Iso8601.joined
      split
      · exact (DateTime.isAscii_padded 2 n).append (.cons (by decide) ih)
      · exact (DateTime.isAscii_padded 2 n).append ih

/-- The bytes at the front: those of the day and of the character after it, and digits. -/
theorem exists_encode_front : ∃ b more, more.length = Iso8601.characterLength b - 1 ∧
    Text.Utf8.encode f.front = Text.Utf8.encode f.day ++
      b :: (more ++ (Iso8601.joined f.colons f.fields).map Iso8601.byte) := by
  obtain ⟨b, more, hseparator, hmore⟩ := Text.Utf8.exists_encodeChar_eq f.separator
  refine ⟨b, more, hmore, ?_⟩
  have hjoined := Text.Utf8.encode_of_ascii (isAscii_joined f.colons f.fields)
  rw [front, Text.Utf8.encode_append, Text.Utf8.encode, Text.Utf8.encode, List.flatMap_cons,
    ← Text.Utf8.encode, ← Text.Utf8.encode, hjoined, hseparator]
  rfl

theorem encode_point_digits : Text.Utf8.encode (f.point :: f.digits) =
    Iso8601.byte f.point :: f.digits.map Iso8601.byte := by
  have hascii : Text.IsAscii (f.point :: f.digits) := by
    refine .cons ?_ fun c hc => Text.isAscii_of_isDigit (f.isDigits c hc)
    rcases f.isPoint with h | h <;>
    · rw [h]
      decide
  exact Text.Utf8.encode_of_ascii hascii

/-- The text is no number, and its day ends where it should. -/
structure Splits : Prop where
  notDigits : (f.day ++ [f.separator]).all Text.isDigit = false
  dayEnds : Iso8601.dateLength (Text.Utf8.encode (expandZulu f.chars)) =
    some (Text.Utf8.encode f.day).length

variable {f}

theorem all_isDigit_chars : f.chars.all Text.isDigit = false := by
  refine List.all_eq_false.mpr ⟨f.point, by simp [chars], ?_⟩
  rcases f.isPoint with h | h <;>
  · rw [h]
    decide

theorem all_isDigit_wholeChars (h : f.Splits) : f.wholeChars.all Text.isDigit = false := by
  have hsplit : f.wholeChars =
      f.day ++ [f.separator] ++ (Iso8601.joined f.colons f.fields ++ f.zone) := by
    simp [wholeChars, front]
  rw [hsplit, List.all_append, h.notDigits, Bool.false_and]

/-- The digits give the microseconds, and without them the rest of the text gives the same second. -/
theorem parse?_wholeChars (h : f.Splits) {t : DateTime}
    (ht : Iso8601.parse? (Text.Utf8.encode (expandZulu f.chars)) = some t) :
    t.time.microsecond = Iso8601.microsecondsOf f.digits ∧
      Iso8601.parse? (Text.Utf8.encode (expandZulu f.wholeChars)) = some t.atWholeSecond := by
  obtain ⟨b, more, hmore, hfront⟩ := f.exists_encode_front
  have hchars : Text.Utf8.encode (expandZulu f.chars) =
      Text.Utf8.encode f.day ++
        b :: (more ++ (Iso8601.joined f.colons f.fields).map Iso8601.byte) ++
          (Iso8601.byte f.point :: f.digits.map Iso8601.byte ++ f.zoneBytes) := by
    rw [expandZulu_chars, List.append_assoc, Text.Utf8.encode_append, Text.Utf8.encode_append, hfront,
      encode_point_digits]
    rfl
  have hwhole : Text.Utf8.encode (expandZulu f.wholeChars) =
      Text.Utf8.encode f.day ++
        b :: (more ++ (Iso8601.joined f.colons f.fields).map Iso8601.byte) ++ f.zoneBytes := by
    rw [expandZulu_wholeChars, Text.Utf8.encode_append, hfront]
    rfl
  have hday := h.dayEnds
  rw [hchars] at ht hday
  rw [hwhole]
  exact Iso8601.parse?_without_fraction hmore f.fields_lt f.hasFields f.fields_le f.isPoint f.isDigits
    f.hasDigits f.isZone_zoneBytes hday ht

section Read

variable {name s : String} (hs : Text.strip s.toList = f.chars) {t : DateTime}
  (ht : readDate name s = .ok t)
include hs ht

theorem parse?_of_readDate : Iso8601.parse? (Text.Utf8.encode (expandZulu f.chars)) = some t := by
  rw [readDate_of_not_digits hs all_isDigit_chars] at ht
  split at ht
  · rename_i u hu
    cases ht
    exact hu
  · cases ht

theorem microsecond_of_readDate (h : f.Splits) : t.time.microsecond = Iso8601.microsecondsOf f.digits :=
  (parse?_wholeChars h (parse?_of_readDate hs ht)).1

theorem readDate_wholeChars (h : f.Splits) {s' : String} (hs' : Text.strip s'.toList = f.wholeChars) :
    readDate name s' = .ok t.atWholeSecond := by
  have hparse := (parse?_wholeChars h (parse?_of_readDate hs ht)).2
  rw [readDate_of_not_digits hs' (all_isDigit_wholeChars h), hparse]

end Read

end FractionalText

end Claims

end Attest
