import Attest.Calendar.Timestamp
import Attest.Proofs.Calendar.Date
import Attest.Proofs.Number.Rounding

/-! Points in time and the seconds since the epoch: a reading of universal time is found from the point
in time, and whole seconds survive as a floating point number. -/

namespace Attest

theorem microsecondsPerSecond_pos : 0 < microsecondsPerSecond := Nat.succ_pos _

namespace TimeOfDay

theorem microseconds_lt (t : TimeOfDay) : t.microseconds < microsecondsPerDay := by
  unfold microseconds microsecondsPerDay microsecondsPerSecond
  omega

theorem ofMicroseconds_microseconds (t : TimeOfDay) : ofMicroseconds t.microseconds = t := by
  obtain ⟨⟨hour, _⟩, ⟨minute, _⟩, ⟨second, _⟩, ⟨microsecond, _⟩⟩ := t
  unfold ofMicroseconds microseconds microsecondsPerSecond
  simp only [Fin.ofNat, TimeOfDay.mk.injEq, Fin.mk.injEq]
  omega

end TimeOfDay

namespace DateTime

theorem ofInstant?_instant {t : DateTime} (h : t.offset = some .zero) :
    ofInstant? t.instant = some t := by
  obtain ⟨date, time, offset⟩ := t
  obtain rfl : offset = some .zero := h
  have htime := time.microseconds_lt
  have hpos : 0 < microsecondsPerDay := by decide
  have hinstant : instant ⟨date, time, some .zero⟩ =
      ((date.number : Int) - epochDay) * microsecondsPerDay + time.microseconds :=
    Int.sub_zero _
  have hday : instant ⟨date, time, some .zero⟩ / microsecondsPerDay + epochDay = date.number := by
    rw [hinstant]
    unfold microsecondsPerDay microsecondsPerSecond at *
    omega
  have hclock : (instant ⟨date, time, some .zero⟩ % microsecondsPerDay).toNat =
      time.microseconds := by
    rw [hinstant]
    unfold microsecondsPerDay microsecondsPerSecond at *
    omega
  simp only [ofInstant?, hday, hclock, Date.ofNumber?_number, TimeOfDay.ofMicroseconds_microseconds]
  rfl

/-- The equation is one of functions: applied to a point in time, both sides would be evaluated. -/
theorem toSeconds_eq : toSeconds = fun t =>
    match t.toBinary64.truncate with
    | .ok seconds => seconds
    | .error _ => 0 := Eq.refl _

theorem toSeconds_of_truncate {t : DateTime} {n : Int} (h : t.toBinary64.truncate = .ok n) :
    t.toSeconds = n := by
  rw [toSeconds_eq]
  simp only [h]

/-- The point in universal time at a second of a day. -/
def atSecond (date : Date) (hour : Fin 24) (minute second : Fin 60) : DateTime :=
  ⟨date, ⟨hour, minute, second, ⟨0, microsecondsPerSecond_pos⟩⟩, some .zero⟩

/-- The seconds from the epoch to a second of a day. -/
def secondsAt (date : Date) (hour : Fin 24) (minute second : Fin 60) : Int :=
  ((date.number : Int) - epochDay) * 86400 + ((hour.val * 60 + minute.val) * 60 + second.val : Nat)

section Second

variable (date : Date) (hour : Fin 24) (minute second : Fin 60)

theorem instant_atSecond : (atSecond date hour minute second).instant =
    secondsAt date hour minute second * microsecondsPerSecond := by
  have hinstant : (atSecond date hour minute second).instant =
      ((date.number : Int) - epochDay) * microsecondsPerDay +
        (((hour.val * 60 + minute.val) * 60 + second.val) * microsecondsPerSecond + 0 : Nat) :=
    Int.sub_zero _
  rw [hinstant, secondsAt]
  unfold microsecondsPerDay microsecondsPerSecond
  omega

theorem natAbs_secondsAt_lt : (secondsAt date hour minute second).natAbs < 2 ^ 53 := by
  have hnumber := date.number_lt
  unfold secondsAt epochDay
  omega

/-- A whole number of seconds is exact as a floating point number. -/
theorem toSeconds_atSecond :
    (atSecond date hour minute second).toSeconds = secondsAt date hour minute second := by
  have hmagnitude : (atSecond date hour minute second).instant.natAbs =
      (secondsAt date hour minute second).natAbs * microsecondsPerSecond := by
    rw [instant_atSecond, Int.natAbs_mul, Int.natAbs_natCast]
  have hsign : (atSecond date hour minute second).instant < 0 ↔
      secondsAt date hour minute second < 0 := by
    rw [instant_atSecond]
    unfold microsecondsPerSecond
    omega
  have hwhole : (atSecond date hour minute second).toBinary64.truncate =
      .ok (secondsAt date hour minute second) := by
    rw [toBinary64, hmagnitude, Binary64.truncate_round_whole
      (natAbs_secondsAt_lt date hour minute second) microsecondsPerSecond_pos]
    simp only [decide_eq_true_eq, hsign, Except.ok.injEq]
    split <;> omega
  exact toSeconds_of_truncate hwhole

theorem ofSeconds_secondsAt :
    ofSeconds (secondsAt date hour minute second) 0 = .ok (atSecond date hour minute second) := by
  have hsmall := natAbs_secondsAt_lt date hour minute second
  have hday : secondsAt date hour minute second / 86400 + epochDay = date.number := by
    unfold secondsAt
    omega
  have hinstant : ofInstant? (secondsAt date hour minute second * microsecondsPerSecond + (0 : Nat)) =
      some (atSecond date hour minute second) := by
    rw [Int.natCast_zero, Int.add_zero, ← instant_atSecond]
    exact ofInstant?_instant rfl
  obtain ⟨hlow, hhigh, -⟩ := date.ranges
  unfold ofSeconds
  rw [hday, Date.yearOfNumber_number, hinstant]
  have hclock : ¬(secondsAt date hour minute second < -2 ^ 63 ∨
      2 ^ 63 ≤ secondsAt date hour minute second) := by omega
  have hyears : ¬((date.year : Int) - 1900 < -2 ^ 31 ∨ 2 ^ 31 ≤ (date.year : Int) - 1900) := by omega
  simp only [Bool.or_eq_true, decide_eq_true_eq, hclock, hyears, if_false]

end Second

end DateTime

end Attest
