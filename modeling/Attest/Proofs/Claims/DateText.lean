import Attest.Proofs.Claims.DateRange
import Attest.Proofs.Claims.Dates

/-! The text of a date that is read from a claim, read as a date again. It is the same second, if the year
has four digits. An earlier year is written with fewer, and then the text is no date. -/

namespace Attest

theorem Text.isBlank_of_isDigit {c : Char} (h : c.isDigit = true) : isBlank c = false := by
  have houtside : ∀ r ∈ blankRanges, '9'.toNat < r.1 ∨ r.2 < '0'.toNat := by decide
  simp only [Char.isDigit, Bool.and_eq_true, decide_eq_true_eq] at h
  have hlow : '0'.toNat ≤ c.toNat := h.1
  have hhigh : c.toNat ≤ '9'.toNat := h.2
  refine Bool.eq_false_iff.mpr fun hblank => ?_
  obtain ⟨r, hr, hfirst, hlast⟩ := inRanges_iff.mp hblank
  have hr := houtside r hr
  omega

namespace Iso8601

theorem numberAfter_eq_none {b : UInt8} (hb : digit? b = none) {before : Bytes} {width : Nat}
    (h : before.length < width) (n : Nat) (rest : Bytes) :
    numberAfter n width (before ++ b :: rest) = none := by
  induction before generalizing n width with
  | nil =>
    obtain ⟨width, rfl⟩ : ∃ w, width = w + 1 := ⟨width - 1, by simp at h; omega⟩
    rw [List.nil_append, numberAfter, hb]
    rfl
  | cons c before ih =>
    obtain ⟨width, rfl⟩ : ∃ w, width = w + 1 := ⟨width - 1, by simp at h; omega⟩
    rw [List.cons_append, numberAfter]
    cases digit? c with
    | none => rfl
    | some d => exact ih (Nat.lt_of_succ_lt_succ h) (10 * n + d)

theorem parse?_eq_none {before rest : Bytes} {b : UInt8} (hb : digit? b = none)
    (h : before.length < 4) : parse? (before ++ b :: rest) = none := by
  have hyear : number 4 (before ++ b :: rest) = none := numberAfter_eq_none hb h 0 rest
  unfold parse?
  cases dateLength (before ++ b :: rest) with
  | none => rfl
  | some length =>
    have hdate : Iso8601.date length (before ++ b :: rest) = none := by
      rw [Iso8601.date, hyear]
      rfl
    rw [Option.bind_eq_bind, Option.bind_some, hdate]
    rfl

end Iso8601

namespace DateTime

/-- A year, month and day, `T`, hour, minute and second, and `Z`, with four digits for the year and two
for all else. -/
def HasTimestampForm (s : String) : Prop :=
  ∃ (date : Date) (hour : Fin 24) (minute second : Fin 60),
    s.toList = secondChars date hour minute second ++ ['Z']

theorem isAscii_secondText (t : DateTime) : Text.IsAscii t.secondText := by
  have hyear : Text.IsAscii (Nat.toDigits 10 t.date.year) := fun c hc =>
    Text.isAscii_of_isDigit (Nat.isDigit_of_mem_toDigits (by decide) (by decide) hc)
  unfold secondText
  exact ((((hyear.append (.cons (by decide) (isAscii_padded _ _))).append
    (.cons (by decide) (isAscii_padded _ _))).append (.cons (by decide) (isAscii_padded _ _))).append
      (.cons (by decide) (isAscii_padded _ _))).append (.cons (by decide) (isAscii_padded _ _))

theorem exists_secondText_eq (t : DateTime) :
    ∃ rest, t.secondText = Nat.toDigits 10 t.date.year ++ '-' :: rest := by
  unfold secondText
  simp only [List.append_assoc]
  exact ⟨_, rfl⟩

theorem toList_universalText (t : DateTime) : t.universalText.toList = t.secondText ++ ['Z'] :=
  String.toList_ofList

theorem strip_universalText (t : DateTime) :
    Text.strip t.universalText.toList = t.secondText ++ ['Z'] := by
  obtain ⟨rest, hrest⟩ := t.exists_secondText_eq
  obtain ⟨c, cs, hdigits⟩ := List.exists_cons_of_ne_nil (Nat.toDigits_ne_nil (n := t.date.year) (b := 10))
  have hdigit : c.isDigit = true := by
    apply Nat.isDigit_of_mem_toDigits (b := 10) (n := t.date.year) (by decide) (by decide)
    rw [hdigits]
    exact List.mem_cons_self
  rw [toList_universalText, hrest, hdigits, List.cons_append, List.cons_append]
  exact Text.strip_of_ends (Text.isBlank_of_isDigit hdigit) (by decide)

end DateTime

namespace Claims

theorem readDate_universalText (name : String) (t : DateTime) :
    readDate name t.universalText =
      match Iso8601.parse? ((t.secondText ++ "+00:00".toList).map Iso8601.byte) with
      | some u => .ok u
      | none => .error (.claim name (some (.invalidDate t.universalText))) := by
  have hdigits : (t.secondText ++ ['Z']).all Text.isDigit = false :=
    List.all_eq_false.mpr ⟨'Z', by simp, by decide⟩
  have hascii : Text.IsAscii (t.secondText ++ "+00:00".toList) :=
    t.isAscii_secondText.append (by decide)
  rw [readDate_of_not_digits t.strip_universalText hdigits, expandZulu_concat,
    Text.Utf8.encode_of_ascii hascii]
  rfl

/-- A year below 1000 has fewer than four digits, and the text is no date. -/
theorem readDate_universalText_of_lt (name : String) {t : DateTime} (h : t.date.year < 1000) :
    readDate name t.universalText =
      .error (.claim name (some (.invalidDate t.universalText))) := by
  obtain ⟨rest, hrest⟩ := t.exists_secondText_eq
  have hlength : (Nat.toDigits 10 t.date.year).length ≤ 3 :=
    (Nat.length_toDigits_le_iff (by decide) (by decide)).mpr h
  have htext : (t.secondText ++ "+00:00".toList).map Iso8601.byte =
      (Nat.toDigits 10 t.date.year).map Iso8601.byte ++
        Iso8601.byte '-' :: (rest ++ "+00:00".toList).map Iso8601.byte := by
    rw [hrest]
    simp
  have hnone : Iso8601.parse? ((t.secondText ++ "+00:00".toList).map Iso8601.byte) = none := by
    rw [htext]
    exact Iso8601.parse?_eq_none (by decide) (by rw [List.length_map]; omega)
  rw [readDate_universalText, hnone]

theorem toList_universalText_of_le {t : DateTime} (h : 1000 ≤ t.date.year) :
    t.universalText.toList =
      DateTime.secondChars t.date t.time.hour t.time.minute t.time.second ++ ['Z'] :=
  DateTime.universalText_atSecond h t.time.hour t.time.minute t.time.second

theorem hasTimestampForm_iff {t : DateTime} :
    DateTime.HasTimestampForm t.universalText ↔ 1000 ≤ t.date.year := by
  constructor
  · rintro ⟨date, hour, minute, second, htext⟩
    apply Nat.le_of_not_lt
    intro hless
    cases (readDate_universalText_of_lt "exp" hless).symm.trans (readDate_secondChars htext "exp")
  · intro h
    exact ⟨_, _, _, _, toList_universalText_of_le h⟩

theorem numericDate_universalText {t : DateTime} (huniversal : t.offset = some .zero)
    (h : 1000 ≤ t.date.year) (name : String) :
    ∃ n : Int, numericDate name (.text t.universalText) = .ok n ∧
      n * microsecondsPerSecond = t.atWholeSecond.instant := by
  have hsecond : t.atWholeSecond =
      DateTime.atSecond t.date t.time.hour t.time.minute t.time.second := by
    unfold DateTime.atWholeSecond DateTime.atSecond
    rw [huniversal]
  refine ⟨_, ?_, ((congrArg DateTime.instant hsecond).trans
    (DateTime.instant_atSecond _ _ _ _)).symm⟩
  rw [numericDate, readDate_secondChars (toList_universalText_of_le h), ← DateTime.toSeconds_atSecond]
  rfl

/-- A claim that gives a date has a text for it. The text has the form of a timestamp, and is read as the
second in which the date lies, exactly if the year has four digits; if it has fewer, the text is not a
date. -/
theorem written_date_iff {claims : Claims} {claim : String} {t : DateTime}
    (h : time? claims claim = some t) :
    ∃ text, formatTime (.time t) = .ok text ∧
      (DateTime.HasTimestampForm text ↔ 1000 ≤ t.date.year) ∧
      ∀ name,
        (1000 ≤ t.date.year → ∃ n : Int, numericDate name (.text text) = .ok n ∧
          n * microsecondsPerSecond = t.atWholeSecond.instant) ∧
        (t.date.year < 1000 →
          numericDate name (.text text) = .error (.claim name (some (.invalidDate text)))) := by
  obtain ⟨x, -, ht⟩ := time?_eq_some_iff.mp h
  have htext : formatTime (.time t) = .ok t.universalText := by
    rw [formatTime, format_of_time? h]
    rfl
  refine ⟨t.universalText, htext, hasTimestampForm_iff, fun name => ⟨fun hyear => ?_, fun hyear => ?_⟩⟩
  · exact numericDate_universalText (DateTime.offset_of_ofNumber ht) hyear name
  · rw [numericDate, readDate_universalText_of_lt name hyear]
    rfl

/-- The first second of the year 1000 is written with four digits for the year. -/
theorem written_date_year1000 :
    ∃ t text, time? [("iat", .int (-30610224000))] "iat" = some t ∧
      formatTime (.time t) = .ok text ∧ DateTime.HasTimestampForm text ∧
      ∃ n : Int, numericDate "iat" (.text text) = .ok n ∧
        n * microsecondsPerSecond = t.atWholeSecond.instant := by
  have htime : time? [("iat", .int (-30610224000))] "iat" =
      some ⟨⟨1000, 1, 1, by decide⟩, ⟨0, 0, 0, 0⟩, some .zero⟩ := by decide +kernel
  obtain ⟨text, htext, hform, hread⟩ := written_date_iff htime
  exact ⟨_, text, htime, htext, hform.mpr (Nat.le_refl _), (hread "iat").1 (Nat.le_refl _)⟩

/-- The first second of the calendar lies in the year 1, which is written with one digit. -/
theorem written_date_year1 :
    ∃ t, time? [("exp", .int calendarStart)] "exp" = some t ∧
      formatTime (.time t) = .ok "1-01-01T00:00:00Z" ∧
      ¬DateTime.HasTimestampForm "1-01-01T00:00:00Z" ∧
      numericDate "exp" (.text "1-01-01T00:00:00Z") =
        .error (.claim "exp" (some (.invalidDate "1-01-01T00:00:00Z"))) := by
  have htime : time? [("exp", .int calendarStart)] "exp" =
      some ⟨⟨1, 1, 1, by decide⟩, ⟨0, 0, 0, 0⟩, some .zero⟩ := by decide +kernel
  have htext : DateTime.universalText ⟨⟨1, 1, 1, by decide⟩, ⟨0, 0, 0, 0⟩, some .zero⟩ =
      "1-01-01T00:00:00Z" := by decide +kernel
  have hread := readDate_universalText_of_lt "exp"
    (t := ⟨⟨1, 1, 1, by decide⟩, ⟨0, 0, 0, 0⟩, some .zero⟩) (by decide)
  have hform : ¬DateTime.HasTimestampForm "1-01-01T00:00:00Z" := by
    rw [← htext, hasTimestampForm_iff]
    decide
  refine ⟨_, htime, ?_, hform, ?_⟩
  · rw [formatTime, format_of_time? htime, htext]
    rfl
  · rw [htext] at hread
    rw [numericDate, hread]
    rfl

end Claims

end Attest
