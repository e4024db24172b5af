import Attest.Calendar.DateTime
import Attest.Proofs.Calendar.Date

/-! The days of the calendar one after the other: the next day of the month, the first day of the next
month, or the first day of the next year. Whatever counts the days from the epoch in this order agrees
with the number of a day, which is computed from years and months. -/

namespace Attest

theorem isLeapYear_iff (year : Nat) :
    isLeapYear year = true ↔ year % 4 = 0 ∧ (year % 100 ≠ 0 ∨ year % 400 = 0) := by
  simp [isLeapYear]

theorem daysBeforeYear_succ {year : Nat} (h : 1 ≤ year) :
    daysBeforeYear (year + 1) = daysBeforeYear year + daysInYear year := by
  obtain ⟨past, rfl⟩ : ∃ past, year = past + 1 := ⟨year - 1, by omega⟩
  have hleap := isLeapYear_iff (past + 1)
  have hless : past / 100 ≤ past / 4 := Nat.div_le_div_left (by decide) (by decide)
  have hquotient (k : Nat) : (past + 1) / k = past / k + if (past + 1) % k = 0 then 1 else 0 := by
    rw [Nat.succ_div]
    simp only [Nat.dvd_iff_mod_eq_zero]
  rw [daysInYear_eq]
  unfold daysBeforeYear
  simp only [Nat.add_sub_cancel, hquotient, hleap]
  split <;> split <;> split <;> split <;> omega

theorem daysBeforeMonth_succ (year : Nat) {month : Nat} (hlow : 1 ≤ month) (hhigh : month < 12) :
    daysBeforeMonth year (month + 1) = daysBeforeMonth year month + daysInMonth year month := by
  have hall : ∀ leap, ∀ month < 12, 1 ≤ month →
      ((monthLengths leap).take month).foldl (· + ·) 0 =
        ((monthLengths leap).take (month - 1)).foldl (· + ·) 0 +
          (monthLengths leap).getD (month - 1) 0 := by decide
  exact hall (isLeapYear year) month hhigh hlow

theorem daysBeforeMonth_december (year : Nat) : daysBeforeMonth year 12 + 31 = daysInYear year := by
  rw [daysBeforeMonth_eq, daysInYear]
  cases isLeapYear year <;> rfl

namespace Date

/-- A day follows another one: within a month, after the last day of a month, and after the last day of a
year. -/
inductive Follows : Date → Date → Prop
  | day {d e : Date} (hyear : e.year = d.year) (hmonth : e.month = d.month)
    (hday : e.day = d.day + 1) : Follows d e
  | month {d e : Date} (hlast : d.day = daysInMonth d.year d.month) (hyear : e.year = d.year)
    (hmonth : e.month = d.month + 1) (hday : e.day = 1) : Follows d e
  | year {d e : Date} (hlastMonth : d.month = 12) (hlastDay : d.day = 31)
    (hyear : e.year = d.year + 1) (hmonth : e.month = 1) (hday : e.day = 1) : Follows d e

theorem number_of_follows {d e : Date} (h : d.Follows e) : e.number = d.number + 1 := by
  obtain ⟨hyearLow, -, hmonthLow, -, hdayLow, -⟩ := d.ranges
  obtain ⟨-, -, -, hmonthHigh, -, -⟩ := e.ranges
  unfold number
  cases h with
  | day hyear hmonth hday =>
    rw [hyear, hmonth, hday]
    omega
  | month hlast hyear hmonth hday =>
    rw [hyear, hmonth, hday, daysBeforeMonth_succ d.year hmonthLow (by omega), ← hlast]
    omega
  | year hlastMonth hlastDay hyear hmonth hday =>
    have hdecember := daysBeforeMonth_december d.year
    have hjanuary : daysBeforeMonth (d.year + 1) 1 = 0 := rfl
    rw [hyear, hmonth, hday, daysBeforeYear_succ hyearLow, hlastMonth, hlastDay, hjanuary]
    omega

theorem exists_follows {e : Date} (h : e.number ≠ 0) : ∃ d : Date, d.Follows e := by
  obtain ⟨hyearLow, hyearHigh, hmonthLow, hmonthHigh, hdayLow, hdayHigh⟩ := e.ranges
  have hpositive : ∀ leap, ∀ month < 12, 1 ≤ (monthLengths leap).getD month 0 := by decide
  by_cases hday : e.day = 1
  · by_cases hmonth : e.month = 1
    · have hyear : e.year ≠ 1 := by
        intro hyear
        apply h
        rw [number, hyear, hmonth, hday]
        rfl
      have hdate : isDate (e.year - 1) 12 31 = true := by
        have hdecember : daysInMonth (e.year - 1) 12 = 31 := by
          unfold daysInMonth
          cases isLeapYear (e.year - 1) <;> rfl
        simp only [isDate, isYear, hdecember, Bool.and_eq_true, decide_eq_true_eq]
        omega
      exact ⟨⟨e.year - 1, 12, 31, hdate⟩, .year rfl rfl (by simp only; omega) hmonth hday⟩
    · have hdate : isDate e.year (e.month - 1) (daysInMonth e.year (e.month - 1)) = true := by
        have hlength := hpositive (isLeapYear e.year) (e.month - 1 - 1) (by omega)
        simp only [isDate, isYear, Bool.and_eq_true, decide_eq_true_eq]
        unfold daysInMonth
        omega
      exact ⟨⟨e.year, e.month - 1, _, hdate⟩, .month rfl rfl (by simp only; omega) hday⟩
  · have hdate : isDate e.year e.month (e.day - 1) = true := by
      simp only [isDate, isYear, Bool.and_eq_true, decide_eq_true_eq]
      omega
    exact ⟨⟨e.year, e.month, e.day - 1, hdate⟩, .day rfl rfl (by simp only; omega)⟩

/-- A count of the days from the epoch: it is zero on that day, and one more on each day than on the day
before. -/
structure CountsDays (days : Date → Int) : Prop where
  epoch : ∀ d, d.year = 1970 → d.month = 1 → d.day = 1 → days d = 0
  next : ∀ d e, d.Follows e → days e = days d + 1

/-- The days from the epoch, from the number of a day. -/
def sinceEpoch (d : Date) : Int := d.number - DateTime.epochDay

theorem countsDays_sinceEpoch : CountsDays sinceEpoch where
  epoch := by
    intro d hyear hmonth hday
    unfold sinceEpoch number
    rw [hyear, hmonth, hday]
    decide
  next := by
    intro d e h
    unfold sinceEpoch
    rw [number_of_follows h]
    omega

theorem CountsDays.sub_eq {days : Date → Int} (h : CountsDays days) {d e : Date} {n : Nat}
    (hd : d.number = 0) (he : e.number = n) : days e = days d + n := by
  induction n generalizing e with
  | zero =>
    have heq : e = d := by
      have hfound := ofNumber?_number e
      rw [he, ← hd, ofNumber?_number] at hfound
      exact (Option.some.inj hfound).symm
    rw [heq, Int.natCast_zero, Int.add_zero]
  | succ n ih =>
    obtain ⟨d', hfollows⟩ := exists_follows (e := e) (by omega)
    have hnumber := number_of_follows hfollows
    rw [h.next d' e hfollows, ih (e := d') (by omega)]
    omega

theorem CountsDays.eq_sinceEpoch {days : Date → Int} (h : CountsDays days) (e : Date) :
    days e = e.sinceEpoch := by
  obtain ⟨first, hfirst⟩ := exists_number_eq (n := 0) (by decide)
  have hepoch := h.epoch ⟨1970, 1, 1, rfl⟩ rfl rfl rfl
  have hnumber : number ⟨1970, 1, 1, rfl⟩ = DateTime.epochDay := by decide
  have hstart := h.sub_eq hfirst hnumber
  rw [h.sub_eq hfirst rfl, sinceEpoch]
  omega

end Date

end Attest
