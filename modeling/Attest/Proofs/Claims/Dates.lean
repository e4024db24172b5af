import Attest.Claims.NumericDate
import Attest.Proofs.Calendar.Iso8601
import Attest.Proofs.Text.Ascii

/-! Dates in claims: the text of a point in universal time to the second is the one that is written
for the seconds since the epoch that it is read as. -/

namespace Attest

namespace DateTime

theorem isAscii_padded (width n : Nat) : Text.IsAscii (padded width n) := by
  intro c hc
  rcases List.mem_append.mp hc with hc | hc
  · rw [List.eq_of_mem_replicate hc]
    decide
  · exact Text.isAscii_of_isDigit (Nat.isDigit_of_mem_toDigits (by decide) (by decide) hc)

theorem toDigits_eq_padded {n : Nat} (hlow : 1000 ≤ n) (hhigh : n < 10000) :
    Nat.toDigits 10 n = padded 4 n := by
  rw [padded, Nat.toDigits_of_base_le (by decide) (by omega),
    Nat.toDigits_of_base_le (by decide) (by omega), Nat.toDigits_of_base_le (by decide) (by omega),
    Nat.toDigits_of_lt_base (by omega)]
  rfl

/-- A second of a day, without the letter for universal time. -/
def secondChars (date : Date) (hour minute second : Nat) : List Char :=
  dayChars date ++ 'T' :: clockChars hour minute second

theorem isAscii_secondChars (date : Date) (hour minute second : Nat) :
    Text.IsAscii (secondChars date hour minute second) := by
  unfold secondChars dayChars clockChars
  exact (((isAscii_padded _ _).append (.cons (by decide) (isAscii_padded _ _))).append
    (.cons (by decide) (isAscii_padded _ _))).append (.cons (by decide)
      (((isAscii_padded _ _).append (.cons (by decide) (isAscii_padded _ _))).append
        (.cons (by decide) (isAscii_padded _ _))))

/-- The text of a point in universal time to the second: year, month and day, `T`, hour, minute and
second, and `Z`, with four digits for the year and two for all else. -/
def IsTimestamp (s : String) : Prop :=
  ∃ (date : Date) (hour : Fin 24) (minute second : Fin 60), 1000 ≤ date.year ∧
    s.toList = secondChars date hour minute second ++ ['Z']

theorem universalText_atSecond {date : Date} (h : 1000 ≤ date.year) (hour : Fin 24)
    (minute second : Fin 60) : (atSecond date hour minute second).universalText.toList =
      secondChars date hour minute second ++ ['Z'] := by
  have hyear : Nat.toDigits 10 date.year = padded 4 date.year :=
    toDigits_eq_padded h (Nat.lt_succ_of_le date.ranges.2.1)
  simp [universalText, secondText, atSecond, secondChars, dayChars, clockChars, hyear]

end DateTime

namespace Claims

theorem strip_secondChars (date : Date) (hour minute second : Nat) :
    Text.strip (DateTime.secondChars date hour minute second ++ ['Z']) =
      DateTime.secondChars date hour minute second ++ ['Z'] := by
  have hblank : ∀ d < 10, Text.isBlank (Nat.digitChar d) = false := by decide
  obtain ⟨d, hd, rest, hpadded⟩ := DateTime.padded_eq_cons (by decide) date.fits_padded.1
  rw [DateTime.secondChars, DateTime.dayChars, hpadded]
  exact Text.strip_of_ends (hblank d hd) (by decide)

theorem hyphen_mem_secondChars (date : Date) (hour minute second : Nat) :
    '-' ∈ DateTime.secondChars date hour minute second := by
  simp [DateTime.secondChars, DateTime.dayChars]

theorem expandZulu_concat (cs : List Char) : expandZulu (cs ++ ['Z']) = cs ++ "+00:00".toList := by
  simp [expandZulu]

/-- The text of a second of a day in universal time is read as that second. -/
theorem readDate_secondChars {s : String} {date : Date} {hour : Fin 24} {minute second : Fin 60}
    (h : s.toList = DateTime.secondChars date hour minute second ++ ['Z']) (name : String) :
    readDate name s = .ok (DateTime.atSecond date hour minute second) := by
  have hdigits : (DateTime.secondChars date hour minute second ++ ['Z']).all Text.isDigit = false :=
    List.all_eq_false.mpr ⟨'-', List.mem_append_left _ (hyphen_mem_secondChars _ _ _ _), by decide⟩
  have hascii : Text.IsAscii (DateTime.secondChars date hour minute second ++ "+00:00".toList) :=
    (DateTime.isAscii_secondChars _ _ _ _).append (by decide)
  have hparse : Iso8601.parse? (Text.Utf8.encode
      (DateTime.secondChars date hour minute second ++ "+00:00".toList)) =
        some (DateTime.atSecond date hour minute second) := by
    rw [Text.Utf8.encode_of_ascii hascii]
    exact Iso8601.parse?_second date hour minute second
  unfold readDate
  rw [h, strip_secondChars]
  simp only [hdigits, Bool.and_false, Bool.false_eq_true, if_false, expandZulu_concat, hparse]

/-- A timestamp becomes seconds since the epoch, of which it is the text. -/
theorem numericDate_timestamp {s : String} (h : DateTime.IsTimestamp s) (name : String) :
    ∃ n t, numericDate name (.text s) = .ok n ∧ DateTime.ofSeconds n 0 = .ok t ∧
      t.universalText = s := by
  obtain ⟨date, hour, minute, second, hyear, hs⟩ := h
  refine ⟨_, _, ?_, DateTime.ofSeconds_secondsAt date hour minute second, ?_⟩
  · rw [numericDate, readDate_secondChars hs, ← DateTime.toSeconds_atSecond]
    rfl
  · rw [← String.toList_inj, hs, DateTime.universalText_atSecond hyear]

end Claims

end Attest
