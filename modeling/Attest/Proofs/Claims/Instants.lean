import Attest.Proofs.Calendar.Count
import Attest.Proofs.Calendar.Offset
import Attest.Proofs.Claims.DateText
import Attest.Proofs.Claims.WholeSeconds
import Attest.Proofs.Number.Numeral

/-! The same second in all its forms. A text with any offset of whole minutes, with a letter for universal
time or with neither, a point in time, and digits alone: they all become the seconds from the epoch, which
are those of the days before and of the time of day, less the offset. -/

namespace Attest

theorem Text.strip_between {before cs after : List Char} (hbefore : ∀ c ∈ before, isBlank c = true)
    (hafter : ∀ c ∈ after, isBlank c = true) (hfirst : ∀ c ∈ cs.head?, isBlank c = false)
    (hlast : ∀ c ∈ cs.getLast?, isBlank c = false) : strip (before ++ cs ++ after) = cs := by
  have hstop (ds : List Char) (h : ∀ c ∈ ds.head?, isBlank c = false) : ds.dropWhile isBlank = ds := by
    cases ds with
    | nil => rfl
    | cons d ds => exact List.dropWhile_cons_of_neg (by simp [h d rfl])
  rw [strip, stripEnd, List.append_assoc, List.dropWhile_append_of_pos hbefore]
  cases cs with
  | nil =>
    rw [List.nil_append, List.dropWhile_eq_nil_iff.mpr hafter]
    rfl
  | cons c cs =>
    rw [hstop (c :: cs ++ after) hfirst, List.reverse_append,
      List.dropWhile_append_of_pos fun d hd => hafter d (List.mem_reverse.mp hd),
      hstop _ (by rwa [List.head?_reverse]), List.reverse_reverse]

theorem decimalNumber_of_isDigit {cs : List Char} (h : ∀ c ∈ cs, c.isDigit = true) (n : Nat) :
    decimalNumber n cs = Nat.ofDigitChars 10 cs n := by
  induction cs generalizing n with
  | nil => rfl
  | cons c rest ih =>
    obtain ⟨hc, hrest⟩ := List.forall_mem_cons.mp h
    rw [decimalNumber, List.foldl_cons, ← decimalNumber, ih hrest, Text.decimalValue?_ascii hc]
    rfl

namespace DateTime

/-- A day and a second of it, with some character in between. -/
def readingChars (date : Date) (separator : Char) (hour minute second : Nat) : List Char :=
  dayChars date ++ separator :: clockChars hour minute second

theorem exists_clockChars_concat (hour minute : Nat) {second : Nat} (h : second < 100) :
    ∃ cs c, clockChars hour minute second = cs ++ [c] ∧ c.isDigit = true := by
  obtain ⟨cs, c, htext, hc⟩ := padded_eq_concat (by decide) (show second < 10 ^ 2 from h)
  refine ⟨padded 2 hour ++ ':' :: padded 2 minute ++ ':' :: cs, c, ?_, hc⟩
  rw [clockChars, htext]
  simp

theorem exists_zoneChars_concat (minutes : Nat) :
    ∃ cs c, zoneChars minutes = cs ++ [c] ∧ c.isDigit = true := by
  obtain ⟨cs, c, htext, hc⟩ := padded_eq_concat (by decide) (show minutes % 60 < 10 ^ 2 by omega)
  refine ⟨padded 2 (minutes / 60) ++ ':' :: cs, c, ?_, hc⟩
  rw [zoneChars, htext]
  simp

theorem isAscii_zoneChars (minutes : Nat) : Text.IsAscii (zoneChars minutes) :=
  (isAscii_padded _ _).append (.cons (by decide) (isAscii_padded _ _))

theorem instant_of_minutes (date : Date) (hour : Fin 24) (minute second : Fin 60) {o : Option Offset}
    {minutes : Int} (h : Offset.IsAhead o minutes) :
    instant ⟨date, ⟨hour, minute, second, 0⟩, o⟩ =
      (secondsAt date hour minute second - 60 * minutes) * microsecondsPerSecond := by
  have huniversal := instant_atSecond date hour minute second
  unfold instant at huniversal ⊢
  rw [show (o.map Offset.microseconds).getD 0 = _ from h]
  change localMicroseconds (atSecond date hour minute second) - _ = _
  have hzero : ((atSecond date hour minute second).offset.map Offset.microseconds).getD 0 = 0 := rfl
  rw [hzero, Int.sub_zero] at huniversal
  rw [huniversal, Int.sub_mul, Int.mul_comm 60 minutes, Int.mul_assoc minutes]

end DateTime

namespace Claims

/-- What may stand behind the seconds of a text, and the minutes by which its clock is then ahead of
universal time. -/
inductive IsSuffix : List Char → Int → Prop
  | none : IsSuffix [] 0
  | letter {c : Char} (h : c = 'Z' ∨ c = 'z') : IsSuffix [c] 0
  | ahead {minutes : Nat} (h : minutes < 1440) :
    IsSuffix ('+' :: DateTime.zoneChars minutes) minutes
  | behind {minutes : Nat} (h : minutes < 1440) :
    IsSuffix ('-' :: DateTime.zoneChars minutes) (-minutes)

section Suffix

variable {suffix : List Char} {minutes : Int}

theorem expandZulu_zoneChars (sign : Char) (minutes : Nat) :
    expandZulu (sign :: DateTime.zoneChars minutes) = sign :: DateTime.zoneChars minutes := by
  obtain ⟨cs, c, htext, hc⟩ := DateTime.exists_zoneChars_concat minutes
  have happend := expandZulu_append (sign :: cs) hc []
  rw [List.append_nil] at happend
  rw [htext, ← List.cons_append, happend]
  exact List.append_nil _

theorem IsSuffix.isOffset (h : IsSuffix suffix minutes) :
    Iso8601.IsOffset (Text.Utf8.encode (expandZulu suffix)) minutes := by
  have hencode {sign : Char} (hsign : sign.toNat < 128) (n : Nat) :
      Text.Utf8.encode (sign :: DateTime.zoneChars n) =
        Iso8601.byte sign :: (DateTime.zoneChars n).map Iso8601.byte :=
    Text.Utf8.encode_of_ascii (Text.IsAscii.cons hsign (DateTime.isAscii_zoneChars n))
  cases h with
  | none => exact .none
  | @letter c hc =>
    have hzulu : expandZulu [c] = '+' :: DateTime.zoneChars 0 := by
      rcases hc with rfl | rfl <;> rfl
    rw [hzulu, hencode (by decide)]
    exact .ahead (by decide)
  | ahead h =>
    rw [expandZulu_zoneChars, hencode (by decide)]
    exact .ahead h
  | behind h =>
    rw [expandZulu_zoneChars, hencode (by decide)]
    exact .behind h

theorem IsSuffix.getLast?_not_isBlank (h : IsSuffix suffix minutes) :
    ∀ c ∈ suffix.getLast?, Text.isBlank c = false := by
  have hzone (sign : Char) (n : Nat) :
      ∀ c ∈ (sign :: DateTime.zoneChars n).getLast?, Text.isBlank c = false := by
    obtain ⟨cs, d, htext, hd⟩ := DateTime.exists_zoneChars_concat n
    intro c hc
    rw [htext, ← List.cons_append, List.getLast?_concat, Option.mem_some_iff] at hc
    rw [← hc]
    exact Text.isBlank_of_isDigit hd
  cases h with
  | none => nofun
  | letter hletter =>
    intro c hc
    obtain rfl := Option.mem_some_iff.mp hc
    rcases hletter with rfl | rfl <;> decide
  | ahead | behind => exact hzone _ _

end Suffix

section Text

variable (date : Date) (separator : Char) (hour : Fin 24) (minute second : Fin 60)
  {suffix : List Char} {minutes : Int} (hsuffix : IsSuffix suffix minutes)
  {before after : List Char} (hbefore : ∀ c ∈ before, Text.isBlank c = true)
  (hafter : ∀ c ∈ after, Text.isBlank c = true)

theorem expandZulu_readingChars :
    expandZulu (DateTime.readingChars date separator hour minute second ++ suffix) =
      DateTime.readingChars date separator hour minute second ++ expandZulu suffix := by
  obtain ⟨cs, c, htext, hc⟩ := DateTime.exists_clockChars_concat hour minute
    (show second.val < 100 by omega)
  have happend := expandZulu_append (DateTime.dayChars date ++ separator :: cs) hc suffix
  unfold DateTime.readingChars
  rw [htext]
  simpa only [List.append_assoc, List.cons_append] using happend

include hsuffix hbefore hafter in
theorem strip_readingChars :
    Text.strip (before ++ (DateTime.readingChars date separator hour minute second ++ suffix) ++ after) =
      DateTime.readingChars date separator hour minute second ++ suffix := by
  refine Text.strip_between hbefore hafter ?_ ?_
  · have hdigit : ∀ d < 10, Text.isBlank (Nat.digitChar d) = false := by decide
    obtain ⟨d, hd, rest, hpadded⟩ := DateTime.padded_eq_cons (by decide) date.fits_padded.1
    intro c hc
    rw [DateTime.readingChars, DateTime.dayChars, hpadded] at hc
    obtain rfl := Option.mem_some_iff.mp hc
    exact hdigit d hd
  · intro c hc
    rw [List.getLast?_append] at hc
    cases hlast : suffix.getLast? with
    | some d =>
      rw [hlast] at hc
      exact hsuffix.getLast?_not_isBlank c (hlast.trans hc)
    | none =>
      obtain ⟨cs, d, htext, hd⟩ := DateTime.exists_clockChars_concat hour minute
        (show second.val < 100 by omega)
      rw [hlast, DateTime.readingChars, htext, ← List.cons_append, ← List.append_assoc,
        List.getLast?_concat] at hc
      obtain rfl := Option.mem_some_iff.mp hc
      exact Text.isBlank_of_isDigit hd

include hsuffix hbefore hafter in
theorem readDate_readingChars {s : String}
    (hs : s.toList =
      before ++ (DateTime.readingChars date separator hour minute second ++ suffix) ++ after)
    (name : String) :
    ∃ o, readDate name s = .ok ⟨date, ⟨hour, minute, second, 0⟩, o⟩ ∧ Offset.IsAhead o minutes := by
  obtain ⟨b, more, hseparator, hmore⟩ := Text.Utf8.exists_encodeChar_eq separator
  obtain ⟨o, hparse, ho⟩ :=
    Iso8601.parse?_clock date hour minute second hmore hsuffix.isOffset
  refine ⟨o, ?_, ho⟩
  have hstrip : Text.strip s.toList =
      DateTime.readingChars date separator hour minute second ++ suffix := by
    rw [hs]
    exact strip_readingChars date separator hour minute second hsuffix hbefore hafter
  have hdigits : (DateTime.readingChars date separator hour minute second ++ suffix).all
      Text.isDigit = false :=
    List.all_eq_false.mpr ⟨'-', by simp [DateTime.readingChars, DateTime.dayChars], by decide⟩
  have hday : Text.IsAscii (DateTime.dayChars date) :=
    ((DateTime.isAscii_padded _ _).append (.cons (by decide) (DateTime.isAscii_padded _ _))).append
      (.cons (by decide) (DateTime.isAscii_padded _ _))
  have hclock : Text.IsAscii (DateTime.clockChars hour minute second) :=
    ((DateTime.isAscii_padded _ _).append (.cons (by decide) (DateTime.isAscii_padded _ _))).append
      (.cons (by decide) (DateTime.isAscii_padded _ _))
  have hencode : Text.Utf8.encode (expandZulu
      (DateTime.readingChars date separator hour minute second ++ suffix)) =
      (DateTime.dayChars date).map Iso8601.byte ++
        b :: (more ++ (DateTime.clockChars hour minute second).map Iso8601.byte) ++
          Text.Utf8.encode (expandZulu suffix) := by
    rw [expandZulu_readingChars, Text.Utf8.encode_append, DateTime.readingChars,
      Text.Utf8.encode_append, Text.Utf8.encode_of_ascii hday, Text.Utf8.encode, Text.Utf8.encode,
      List.flatMap_cons, ← Text.Utf8.encode, ← Text.Utf8.encode, Text.Utf8.encode_of_ascii hclock,
      hseparator]
    rfl
  rw [readDate_of_not_digits hstrip hdigits, hencode, hparse]

end Text

/-- Digits alone, with blanks around them, are the seconds themselves. -/
theorem numericDate_digits {n : Nat} (h : n < calendarEnd) {before after : List Char}
    (hbefore : ∀ c ∈ before, Text.isBlank c = true) (hafter : ∀ c ∈ after, Text.isBlank c = true)
    {s : String} (hs : s.toList = before ++ Nat.toDigits 10 n ++ after) (name : String) :
    numericDate name (.text s) = .ok n := by
  obtain ⟨hne, hdigits⟩ := isDigits_toDigits n
  have hstrip : Text.strip s.toList = Nat.toDigits 10 n := by
    rw [hs]
    exact Text.strip_between hbefore hafter
      (fun c hc => Text.isBlank_of_isDigit (hdigits c (List.mem_of_mem_head? hc)))
      (fun c hc => Text.isBlank_of_isDigit (hdigits c (List.mem_of_mem_getLast? hc)))
  have hdecimal : ∀ c ∈ Nat.toDigits 10 n, isDecimal c = true := by
    intro c hc
    rw [isDecimal, Text.decimalValue?_ascii (hdigits c hc)]
    rfl
  have honly : OnlyDigits s := by
    refine ⟨by rw [hstrip]; exact hne, fun c hc => ?_⟩
    rw [hstrip] at hc
    rw [Text.isDigit, Bool.or_eq_true]
    exact .inl (hdecimal c hc)
  have hlength : (Nat.toDigits 10 n).length ≤ Json.digitLimit := by
    have hshort : (Nat.toDigits 10 n).length ≤ 12 :=
      (Nat.length_toDigits_le_iff (by decide) (by decide)).mpr (by unfold calendarEnd at h; omega)
    exact Nat.le_trans hshort (by decide)
  have hnumber : n = decimalNumber 0 (Nat.toDigits 10 n) := by
    rw [decimalNumber_of_isDigit hdigits]
    exact (natOfDigits_toDigits n).symm
  have hread : readDigits (Nat.toDigits 10 n) = .ok n :=
    readDigits_eq_ok_iff.mpr ⟨hne, hdecimal, hlength, hnumber⟩
  obtain ⟨t, ht⟩ := (DateTime.exists_ofSeconds_iff microsecondsPerSecond_pos).mpr
    (⟨by unfold calendarStart; omega, h⟩ : calendarStart ≤ (n : Int) ∧ (n : Int) < calendarEnd)
  have hdate : readDate name s = .ok t := by
    rw [readDate_of_onlyDigits honly, hstrip, hread]
    show (DateTime.ofSeconds n 0).mapError _ = _
    rw [ht]
    rfl
  rw [numericDate_of_readDate hdate, (DateTime.instant_of_ofSeconds ht).1,
    DateTime.secondsOf_of_dvd (Int.dvd_mul_left _ _), Int.mul_ediv_cancel _ (by decide)]

/-- Every form of a second becomes the same number. -/
theorem numericDate_of_second {days : Date → Int} (hdays : Date.CountsDays days) (date : Date)
    (hour : Fin 24) (minute second : Fin 60) {suffix : List Char} {minutes : Int}
    (hsuffix : IsSuffix suffix minutes) {before after : List Char}
    (hbefore : ∀ c ∈ before, Text.isBlank c = true) (hafter : ∀ c ∈ after, Text.isBlank c = true)
    {n : Int} (hn : n = days date * 86400 +
      ((hour.val * 60 + minute.val) * 60 + second.val : Nat) - 60 * minutes) (name : String) :
    (∀ separator s, s.toList =
        before ++ (DateTime.readingChars date separator hour minute second ++ suffix) ++ after →
      numericDate name (.text s) = .ok n) ∧
    (∀ o, Offset.IsAhead o minutes →
      numericDate name (.time ⟨date, ⟨hour, minute, second, 0⟩, o⟩) = .ok n) ∧
    (0 ≤ n → n < calendarEnd → ∀ s, s.toList = before ++ Nat.toDigits 10 n.toNat ++ after →
      numericDate name (.text s) = .ok n) := by
  have hseconds {o : Option Offset} (ho : Offset.IsAhead o minutes) :
      DateTime.secondsOf (DateTime.instant ⟨date, ⟨hour, minute, second, 0⟩, o⟩) = n := by
    rw [DateTime.instant_of_minutes date hour minute second ho,
      DateTime.secondsOf_of_dvd (Int.dvd_mul_left _ _),
      Int.mul_ediv_cancel _ (by decide), hn, hdays.eq_sinceEpoch]
    rfl
  refine ⟨fun separator s hs => ?_, fun o ho => ?_, fun hlow hhigh s hs => ?_⟩
  · obtain ⟨o, hread, ho⟩ := readDate_readingChars date separator hour minute second hsuffix hbefore
      hafter hs name
    rw [numericDate_of_denotes (.text hread), hseconds ho]
  · rw [numericDate_of_denotes (.time _), hseconds ho]
  · obtain ⟨k, rfl⟩ := Int.eq_ofNat_of_zero_le hlow
    exact numericDate_digits hhigh hbefore hafter hs name

/-- A clock that is ahead of universal time already shows March. -/
theorem numericDate_of_leapDay :
    numericDate "exp" (.text " 2024-03-01 01:30:00+05:30\n") = .ok 1709236800 ∧
    numericDate "exp" (.time ⟨⟨2024, 3, 1, by decide⟩, ⟨1, 30, 0, 0⟩, some ⟨19800000000, by decide⟩⟩) =
      .ok 1709236800 ∧
    numericDate "exp" (.text " 1709236800\n") = .ok 1709236800 := by
  have hsuffix : IsSuffix ('+' :: DateTime.zoneChars 330) 330 := .ahead (by decide)
  have hbefore : ∀ c ∈ [' '], Text.isBlank c = true := List.all_eq_true.mp (by decide)
  have hafter : ∀ c ∈ ['\n'], Text.isBlank c = true := List.all_eq_true.mp (by decide)
  obtain ⟨htext, htime, hdigits⟩ := numericDate_of_second Date.countsDays_sinceEpoch
    ⟨2024, 3, 1, by decide⟩ 1 30 0 hsuffix hbefore hafter (n := 1709236800) (by decide) "exp"
  exact ⟨htext ' ' _ (by decide), htime _ rfl, hdigits (by decide) (by decide) _ (by decide)⟩

end Claims

end Attest
