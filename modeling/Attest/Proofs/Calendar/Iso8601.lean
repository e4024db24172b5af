import Attest.Calendar.Iso8601
import Attest.Proofs.Calendar.Timestamp
import Attest.Proofs.Text.Filled

/-! Reading a point in time in universal time to the second, in the extended format with an offset:
the day and the time of day are found again. -/

namespace Attest

namespace DateTime

section Padded

variable {width n : Nat} (hwidth : width ≠ 0) (h : n < 10 ^ width)
include hwidth h

theorem padded_eq_map :
    padded width n = (List.range width).reverse.map fun i => Nat.digitChar (n / 10 ^ i % 10) :=
  filled_eq_map (by decide) hwidth h

theorem length_padded : (padded width n).length = width := by
  rw [padded_eq_map hwidth h, List.length_map, List.length_reverse, List.length_range]

theorem padded_digits : ∀ c ∈ padded width n, ∃ d < 10, Nat.digitChar d = c := by
  intro c hc
  rw [padded_eq_map hwidth h] at hc
  obtain ⟨i, -, rfl⟩ := List.mem_map.mp hc
  exact ⟨_, Nat.mod_lt _ (by decide), rfl⟩

theorem padded_ne_nil : padded width n ≠ [] := by
  intro hnil
  have hlength := length_padded hwidth h
  rw [hnil] at hlength
  exact hwidth hlength.symm

theorem padded_eq_cons : ∃ d < 10, ∃ rest, padded width n = Nat.digitChar d :: rest := by
  obtain ⟨c, rest, hpadded⟩ := List.exists_cons_of_ne_nil (padded_ne_nil hwidth h)
  obtain ⟨d, hd, rfl⟩ := padded_digits hwidth h c (hpadded ▸ List.mem_cons_self)
  exact ⟨d, hd, rest, hpadded⟩

theorem padded_eq_concat : ∃ cs c, padded width n = cs ++ [c] ∧ c.isDigit = true := by
  have hdigit : ∀ d < 10, (Nat.digitChar d).isDigit = true := by decide
  have hne := padded_ne_nil hwidth h
  obtain ⟨d, hd, hlast⟩ := padded_digits hwidth h _ (List.getLast_mem hne)
  exact ⟨_, _, (List.dropLast_concat_getLast hne).symm, hlast ▸ hdigit d hd⟩

end Padded

/-- The day as year, month and day, with four digits for the year. -/
def dayChars (date : Date) : List Char :=
  padded 4 date.year ++ '-' :: padded 2 date.month ++ '-' :: padded 2 date.day

/-- The time as hour, minute and second. -/
def clockChars (hour minute second : Nat) : List Char :=
  padded 2 hour ++ ':' :: padded 2 minute ++ ':' :: padded 2 second

end DateTime

theorem Date.fits_padded (date : Date) :
    date.year < 10 ^ 4 ∧ date.month < 10 ^ 2 ∧ date.day < 10 ^ 2 := by
  obtain ⟨-, hyear, -, hmonth, -, -⟩ := date.ranges
  have hday := date.day_le
  omega

namespace Iso8601

theorem digit?_digitChar {d : Nat} (h : d < 10) : digit? (byte (Nat.digitChar d)) = some d := by
  have hall : ∀ d < 10, digit? (byte (Nat.digitChar d)) = some d := by decide
  exact hall d h

theorem byte_digitChar_ne {d : Nat} (h : d < 10) {b : UInt8} (hb : digit? b = none) :
    byte (Nat.digitChar d) ≠ b := by
  rintro rfl
  rw [digit?_digitChar h] at hb
  cases hb

theorem numberAfter_digit {d : Nat} (h : d < 10) (n width : Nat) (rest : Bytes) :
    numberAfter n (width + 1) (byte (Nat.digitChar d) :: rest) =
      numberAfter (10 * n + d) width rest := by
  rw [numberAfter, digit?_digitChar h]
  rfl

/-- The last digit of a number is read after the digits before it. -/
theorem numberAfter_succ (n width : Nat) (text : Bytes) :
    numberAfter n (width + 1) text =
      (numberAfter n width text).bind fun p => numberAfter p.1 1 p.2 := by
  induction width generalizing n text with
  | zero => rfl
  | succ width ih =>
    cases text with
    | nil => rfl
    | cons b rest =>
      rw [numberAfter, numberAfter]
      cases digit? b with
      | none => rfl
      | some d => exact ih (10 * n + d) rest

theorem number_padded {width n : Nat} (hwidth : width ≠ 0) (h : n < 10 ^ width) (rest : Bytes) :
    number width ((DateTime.padded width n).map byte ++ rest) = some (n, rest) := by
  induction width generalizing n rest with
  | zero => exact absurd rfl hwidth
  | succ width ih =>
    cases width with
    | zero =>
      have hn : n < 10 := h
      rw [DateTime.padded_eq_filled, filled_one hn]
      show numberAfter 0 (0 + 1) (_ :: rest) = _
      rw [numberAfter_digit hn, Nat.mul_zero, Nat.zero_add]
      rfl
    | succ width =>
      have hquotient : n / 10 < 10 ^ (width + 1) :=
        Nat.div_lt_of_lt_mul (by rwa [Nat.pow_succ, Nat.mul_comm] at h)
      have hread := ih (Nat.succ_ne_zero _) hquotient (byte (Nat.digitChar (n % 10)) :: rest)
      rw [DateTime.padded_eq_filled, filled_succ (by decide) (Nat.succ_ne_zero _), List.map_append,
        List.append_assoc, ← DateTime.padded_eq_filled, number, numberAfter_succ]
      rw [number] at hread
      show (numberAfter 0 _ (_ ++ _ :: rest)).bind _ = _
      rw [hread, Option.bind_some, numberAfter_digit (Nat.mod_lt _ (by decide)), Nat.div_add_mod]
      rfl

section Day

variable (date : Date) (rest : Bytes)

theorem length_dayChars : (DateTime.dayChars date).length = 10 := by
  obtain ⟨hyear, hmonth, hday⟩ := date.fits_padded
  simp [DateTime.dayChars, DateTime.length_padded (by decide) hyear,
    DateTime.length_padded (by decide) hmonth, DateTime.length_padded (by decide) hday]

theorem dateLength_day : dateLength ((DateTime.dayChars date).map byte ++ rest) = some 10 := by
  obtain ⟨hyear, hmonth, -⟩ := date.fits_padded
  obtain ⟨d, hd, tail, hpadded⟩ := DateTime.padded_eq_cons (by decide) hmonth
  have hlength : 10 ≤ ((DateTime.dayChars date).map byte ++ rest).length := by
    simp [length_dayChars]
  have hhyphen : ((DateTime.dayChars date).map byte ++ rest)[4]? = some (byte '-') := by
    simp [DateTime.dayChars, DateTime.length_padded (by decide) hyear]
  have hweek : ((DateTime.dayChars date).map byte ++ rest)[5]? ≠ some (byte 'W') := by
    simpa [DateTime.dayChars, List.getElem?_append_right, DateTime.length_padded (by decide) hyear,
      hpadded] using byte_digitChar_ne hd (show digit? (byte 'W') = none by decide)
  unfold dateLength
  simp only [hhyphen, beq_self_eq_true, if_true, beq_eq_false_iff_ne.mpr hweek]
  rw [if_neg (by omega), if_neg (by omega), if_neg (by decide)]

theorem date_day : Iso8601.date 10 ((DateTime.dayChars date).map byte ++ rest) = some date := by
  obtain ⟨hyear, hmonth, hday⟩ := date.fits_padded
  have hlength : ((DateTime.dayChars date).map byte ++ rest).length - rest.length = 10 := by
    simp [length_dayChars]
  have hweek : (((DateTime.padded 2 date.month).map byte ++ byte '-' ::
      ((DateTime.padded 2 date.day).map byte ++ rest)).head? == some (byte 'W')) = false := by
    obtain ⟨d, hd, tail, hpadded⟩ := DateTime.padded_eq_cons (by decide) hmonth
    rw [hpadded]
    exact beq_eq_false_iff_ne.mpr fun h => byte_digitChar_ne hd
      (show digit? (byte 'W') = none by decide) (Option.some.inj h)
  have htext : (DateTime.dayChars date).map byte ++ rest = (DateTime.padded 4 date.year).map byte ++
      byte '-' :: ((DateTime.padded 2 date.month).map byte ++
        byte '-' :: ((DateTime.padded 2 date.day).map byte ++ rest)) := by
    simp [DateTime.dayChars]
  unfold Iso8601.date
  rw [htext, number_padded (by decide) hyear]
  simp only [Option.bind_eq_bind, Option.bind_some, List.head?_cons, beq_self_eq_true, if_true,
    List.tail_cons, hweek, number_padded (by decide) hmonth, hyphen, number_padded (by decide) hday]
  rw [← htext, if_neg (by decide), if_pos hlength, Date.of?_self]

end Day

theorem time_colon {n : Nat} (hn : n < 100) {rest : Bytes} (hrest : rest ≠ []) (fuel : Nat)
    (values : List Nat) (after : Bytes) :
    time (fuel + 1) values true ((DateTime.padded 2 n).map byte ++ byte ':' :: rest) after =
      time fuel (values ++ [n]) true rest after := by
  have hmore : ¬(byte ':' :: rest).length ≤ 1 := by
    have := List.length_pos_iff.mpr hrest
    simp only [List.length_cons]
    omega
  have hnext : next? (byte ':' :: (rest ++ after)) = some (byte ':') := rfl
  rw [time, number_padded (by decide) hn]
  simp only [Option.bind_eq_bind, Option.bind_some, List.cons_append, hnext, beq_self_eq_true,
    ite_self, hmore, if_false, Bool.and_self, if_true, List.tail_cons]

theorem time_last {n : Nat} (hn : n < 100) (fuel : Nat) (values : List Nat) (colons : Bool)
    (after : Bytes) : time (fuel + 1) values colons ((DateTime.padded 2 n).map byte) after =
      some (Fields.ofList (values ++ [n]) 0, (next? after).isSome) := by
  rw [← List.append_nil ((DateTime.padded 2 n).map byte), time, number_padded (by decide) hn]
  rfl

theorem beginsOffset_padded {n : Nat} (hn : n < 100) :
    ∀ b ∈ (DateTime.padded 2 n).map byte, (!beginsOffset b) = true := by
  have hdigit : ∀ d < 10, (!beginsOffset (byte (Nat.digitChar d))) = true := by decide
  intro b hb
  obtain ⟨c, hc, rfl⟩ := List.mem_map.mp hb
  obtain ⟨d, hd, rfl⟩ := DateTime.padded_digits (by decide) hn c hc
  exact hdigit d hd

section Clock

variable (hour : Fin 24) (minute second : Fin 60)

theorem time_clock (after : Bytes) :
    time 3 [] true ((DateTime.clockChars hour minute second).map byte) after =
      some (⟨hour, minute, second, 0⟩, (next? after).isSome) := by
  have htext : (DateTime.clockChars hour minute second).map byte =
      (DateTime.padded 2 hour).map byte ++ byte ':' :: ((DateTime.padded 2 minute).map byte ++
        byte ':' :: (DateTime.padded 2 second).map byte) := by
    simp [DateTime.clockChars]
  have hlast : (DateTime.padded 2 second).map byte ≠ [] := by
    rw [Ne, List.map_eq_nil_iff]
    exact DateTime.padded_ne_nil (by decide) (show (second : Nat) < 10 ^ 2 by omega)
  rw [htext, time_colon (by omega) (by simp), time_colon (by omega) hlast, time_last (by omega)]
  rfl

theorem beginsOffset_clock : ∀ b ∈ (DateTime.clockChars hour minute second).map byte,
    (!beginsOffset b) = true := by
  simp only [DateTime.clockChars, List.map_append, List.map_cons, List.forall_mem_append,
    List.forall_mem_cons]
  exact ⟨⟨beginsOffset_padded (by omega), rfl, beginsOffset_padded (by omega)⟩, rfl,
    beginsOffset_padded (by omega)⟩

theorem timeAndOffset_clock :
    timeAndOffset ((DateTime.clockChars hour minute second).map byte ++ "+00:00".toList.map byte) =
      some (⟨hour, minute, second, 0⟩, some .zero) := by
  have hbefore := beginsOffset_clock hour minute second
  have hoffset : offset (byte '+') ("00:00".toList.map byte) = some .zero := by decide
  have hclock : TimeOfDay.of? hour minute second 0 = some ⟨hour, minute, second, 0⟩ :=
    dif_pos ⟨hour.isLt, minute.isLt, second.isLt, by decide⟩
  have hsign : "+00:00".toList.map byte = byte '+' :: "00:00".toList.map byte := by decide
  unfold timeAndOffset
  rw [List.takeWhile_append_of_pos hbefore, List.dropWhile_append_of_pos hbefore, hsign,
    List.takeWhile_cons_of_neg (by decide), List.dropWhile_cons_of_neg (by decide), List.append_nil]
  simp only [time_clock, Option.bind_eq_bind, Option.bind_some, hclock, hoffset]
  rfl

end Clock

/-- A second of a day in universal time is found again. -/
theorem parse?_second (date : Date) (hour : Fin 24) (minute second : Fin 60) :
    parse? (((DateTime.dayChars date ++ 'T' :: DateTime.clockChars hour minute second) ++
      "+00:00".toList).map byte) = some (DateTime.atSecond date hour minute second) := by
  have htext : ((DateTime.dayChars date ++ 'T' :: DateTime.clockChars hour minute second) ++
      "+00:00".toList).map byte = (DateTime.dayChars date).map byte ++
        byte 'T' :: ((DateTime.clockChars hour minute second).map byte ++
          "+00:00".toList.map byte) := by
    simp
  have hdrop : ((DateTime.dayChars date).map byte ++
        byte 'T' :: ((DateTime.clockChars hour minute second).map byte ++
          "+00:00".toList.map byte)).drop 10 =
      byte 'T' :: ((DateTime.clockChars hour minute second).map byte ++ "+00:00".toList.map byte) :=
    List.drop_left' (by rw [List.length_map, length_dayChars])
  have hseparator : characterLength (byte 'T') - 1 = 0 := rfl
  unfold parse?
  rw [htext, dateLength_day]
  simp only [Option.bind_eq_bind, Option.bind_some, date_day, hdrop, hseparator, List.drop_zero,
    timeAndOffset_clock]
  rfl

end Iso8601

end Attest
