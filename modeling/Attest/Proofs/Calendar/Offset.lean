import Attest.Proofs.Calendar.Fraction

/-! Reading a second of a day with an offset of whole minutes from universal time, after any one character
between the day and the time. -/

namespace Attest

/-- Hours and minutes, as they stand behind the sign of an offset. -/
def DateTime.zoneChars (minutes : Nat) : List Char :=
  padded 2 (minutes / 60) ++ ':' :: padded 2 (minutes % 60)

/-- A clock is ahead of universal time by so many minutes; one of unknown offset shows universal time. -/
def Offset.IsAhead (o : Option Offset) (minutes : Int) : Prop :=
  (o.map Offset.microseconds).getD 0 = minutes * (60 * microsecondsPerSecond)

namespace Iso8601

theorem time_zoneChars {minutes : Nat} (h : minutes < 1440) :
    time 3 [] true ((DateTime.zoneChars minutes).map byte) [] =
      some (⟨minutes / 60, minutes % 60, 0, 0⟩, false) := by
  have hfields : ∀ n ∈ [minutes / 60, minutes % 60], n < 100 := by
    simp only [List.forall_mem_cons]
    exact ⟨by omega, by omega, nofun⟩
  have hstart : ([] : List Nat) = [] ∨ true = true := .inl rfl
  exact time_joined hfields (List.cons_ne_nil _ _) (show 2 ≤ 3 by omega) hstart []

/-- The offset of a clock that is ahead of universal time, or behind it, by less than a day. -/
theorem offset_zoneChars {sign : Char} (hsign : sign = '+' ∨ sign = '-') {minutes : Nat}
    (h : minutes < 1440) :
    ∃ o, offset (byte sign) ((DateTime.zoneChars minutes).map byte) = some o ∧
      o.microseconds = (if sign = '-' then -(minutes : Int) else minutes) * (60 * microsecondsPerSecond) := by
  have hletter : ¬(byte sign == byte 'Z') = true := by rcases hsign with rfl | rfl <;> decide
  have hminus : (byte sign == byte '-') = decide (sign = '-') := by rcases hsign with rfl | rfl <;> decide
  have hseconds : Fields.seconds ⟨minutes / 60, minutes % 60, 0, 0⟩ = minutes * 60 := by
    show minutes / 60 * 3600 + minutes % 60 * 60 + 0 = minutes * 60
    omega
  unfold offset
  rw [if_neg hletter, time_zoneChars h]
  simp only [Option.bind_eq_bind, Option.bind_some, Bool.false_eq_true, if_false, hminus,
    decide_eq_true_eq, hseconds]
  by_cases hzero : minutes * 60 = 0
  · rw [if_pos hzero]
    refine ⟨.zero, rfl, ?_⟩
    obtain rfl : minutes = 0 := by omega
    split <;> rfl
  · have hrange : (if sign = '-' then -((minutes * 60 * microsecondsPerSecond + 0 : Nat) : Int)
        else ((minutes * 60 * microsecondsPerSecond + 0 : Nat) : Int)).natAbs < microsecondsPerDay := by
      unfold microsecondsPerDay microsecondsPerSecond
      split <;> omega
    rw [if_neg hzero, Offset.of?, dif_pos hrange]
    refine ⟨_, rfl, ?_⟩
    unfold microsecondsPerSecond
    simp only
    split <;> omega

/-- What stands behind the time of day, as bytes, for a clock that is ahead of universal time by so many
minutes, or behind it; without an offset the clock shows universal time. -/
inductive IsOffset : Bytes → Int → Prop
  | none : IsOffset [] 0
  | ahead {minutes : Nat} (h : minutes < 1440) :
    IsOffset (byte '+' :: (DateTime.zoneChars minutes).map byte) minutes
  | behind {minutes : Nat} (h : minutes < 1440) :
    IsOffset (byte '-' :: (DateTime.zoneChars minutes).map byte) (-minutes)

theorem IsOffset.isZone {zone : Bytes} {minutes : Int} (h : IsOffset zone minutes) : IsZone zone := by
  cases h with
  | none => exact .none
  | ahead => exact .offset (by decide) _
  | behind => exact .offset (by decide) _

theorem IsOffset.exists_offset {zone : Bytes} {minutes : Int} (h : IsOffset zone minutes) :
    ∃ o, offsetBehind zone (next? zone).isSome = some o ∧ Offset.IsAhead o minutes := by
  cases h with
  | none => exact ⟨Option.none, rfl, rfl⟩
  | @ahead minutes hrange =>
    obtain ⟨o, ho, hmicroseconds⟩ := offset_zoneChars (.inl rfl : '+' = '+' ∨ '+' = '-') hrange
    refine ⟨some o, ?_, hmicroseconds⟩
    rw [offsetBehind, ho]
    rfl
  | @behind minutes hrange =>
    obtain ⟨o, ho, hmicroseconds⟩ := offset_zoneChars (.inr rfl : '-' = '+' ∨ '-' = '-') hrange
    refine ⟨some o, ?_, hmicroseconds⟩
    rw [offsetBehind, ho]
    rfl

/-- A second of a day is found again, with its offset. -/
theorem parse?_clock (date : Date) (hour : Fin 24) (minute second : Fin 60) {more zone : Bytes}
    {b : UInt8} (hmore : more.length = characterLength b - 1) {minutes : Int}
    (hzone : IsOffset zone minutes) :
    ∃ o, parse? ((DateTime.dayChars date).map byte ++
        b :: (more ++ (DateTime.clockChars hour minute second).map byte) ++ zone) =
          some ⟨date, ⟨hour, minute, second, 0⟩, o⟩ ∧ Offset.IsAhead o minutes := by
  obtain ⟨o, ho, hahead⟩ := hzone.exists_offset
  have hday : ((DateTime.dayChars date).map byte).length = 10 := by
    rw [List.length_map, length_dayChars]
  have hclock : 2 ≤ ((DateTime.clockChars hour minute second).map byte).length := by
    simp only [DateTime.clockChars, List.length_map, List.length_append, List.length_cons]
    omega
  have htime : TimeOfDay.of? hour minute second 0 = some ⟨hour, minute, second, 0⟩ :=
    dif_pos ⟨hour.isLt, minute.isLt, second.isLt, by decide⟩
  refine ⟨o, ?_, hahead⟩
  rw [parse?_front hmore hclock (takeWhile_isDigit_zone hzone.isZone) (by omega)
    (by rw [hday, dateLength_day]), hday, date_day]
  simp only [Option.bind_eq_bind, Option.bind_some,
    timeAndOffset_zone hzone.isZone (beginsOffset_clock hour minute second)
      (time_clock hour minute second zone), htime, ho, Option.map_some]
  rfl

end Iso8601

end Attest
