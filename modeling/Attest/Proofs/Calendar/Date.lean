import Attest.Calendar.Date
import Mathlib.Algebra.GroupWithZero.Nat

/-! Days and their numbers: each day of the calendar is found again from its number, and each number up
to that of the last day is found. The number of a year is taken apart into cycles of 400 years,
centuries, cycles of four years and single years. -/

namespace Attest

def daysInYear (year : Nat) : Nat := (monthLengths (isLeapYear year)).sum

theorem daysInYear_eq (year : Nat) : daysInYear year = if isLeapYear year then 366 else 365 := by
  unfold daysInYear
  cases isLeapYear year <;> rfl

theorem daysBeforeMonth_eq (year month : Nat) :
    daysBeforeMonth year month = ((monthLengths (isLeapYear year)).take (month - 1)).sum :=
  List.sum_eq_foldl.symm

/-- A year after `a` cycles of 400 years, `c` centuries, `q` cycles of four years and `y` years. -/
theorem exists_year_eq {year : Nat} (h : 1 ≤ year) : ∃ a c q y, c < 4 ∧ q < 25 ∧ y < 4 ∧
    year = 400 * a + 100 * c + 4 * q + y + 1 :=
  ⟨(year - 1) / 400, (year - 1) / 100 % 4, (year - 1) / 4 % 25, (year - 1) % 4, by omega, by omega,
    by omega, by omega⟩

section Cycle

variable {a c q y : Nat} (hc : c < 4) (hq : q < 25) (hy : y < 4)
include hc hq hy

theorem daysBeforeYear_cycle : daysBeforeYear (400 * a + 100 * c + 4 * q + y + 1) =
    146097 * a + 36524 * c + 1461 * q + 365 * y := by
  unfold daysBeforeYear
  simp only
  omega

/-- The last year of a cycle of four years is a leap year, but not in the last cycle of a century,
unless it is the last century. -/
theorem daysInYear_cycle : daysInYear (400 * a + 100 * c + 4 * q + y + 1) =
    if y = 3 ∧ (q < 24 ∨ c = 3) then 366 else 365 := by
  rw [daysInYear_eq]
  congr 1
  simp only [isLeapYear, Bool.and_eq_true, Bool.or_eq_true, beq_iff_eq, bne_iff_ne, eq_iff_iff]
  omega

theorem yearInCycle_cycle {k : Nat} (hk : k < if y = 3 ∧ (q < 24 ∨ c = 3) then 366 else 365) :
    Date.yearInCycle (36524 * c + 1461 * q + 365 * y + k) = (100 * c + 4 * q + y, k) := by
  have hsmall : 365 * y + k < 1461 := by split at hk <;> omega
  have hcentury : min ((36524 * c + 1461 * q + 365 * y + k) / 36524) 3 = c := by
    split at hk <;> omega
  have hyear : min ((365 * y + k) / 365) 3 = y := by split at hk <;> omega
  have hrest : 36524 * c + 1461 * q + 365 * y + k - 36524 * c = 1461 * q + (365 * y + k) := by omega
  have hfours : (1461 * q + (365 * y + k)) / 1461 = q := by omega
  have hfour : (1461 * q + (365 * y + k)) % 1461 = 365 * y + k := by omega
  simp only [Date.yearInCycle, hcentury, hrest, hfours, hfour, hyear, Nat.add_sub_cancel_left]

end Cycle

/-- Every number of days is that of the days of whole years and of a day in the next year. -/
theorem exists_yearStart_add (n : Nat) :
    ∃ year k, 1 ≤ year ∧ k < daysInYear year ∧ n = daysBeforeYear year + k := by
  obtain ⟨a, r, hr, rfl⟩ : ∃ a r, r < 146097 ∧ n = 146097 * a + r :=
    ⟨n / 146097, n % 146097, by omega, by omega⟩
  obtain ⟨c, r, hc, hr, rfl⟩ : ∃ c r', c < 4 ∧ (r' < 36524 ∨ c = 3 ∧ r' = 36524) ∧
      r = 36524 * c + r' :=
    ⟨min (r / 36524) 3, r - 36524 * min (r / 36524) 3, by omega, by omega, by omega⟩
  obtain ⟨q, r, hq, hr, rfl⟩ : ∃ q r', q < 25 ∧ (r' < 1460 ∨ r' = 1460 ∧ (q < 24 ∨ c = 3)) ∧
      r = 1461 * q + r' :=
    ⟨r / 1461, r % 1461, by omega, by omega, by omega⟩
  obtain ⟨y, k, hy, hk, rfl⟩ : ∃ y k, y < 4 ∧ (k < 365 ∨ k = 365 ∧ y = 3 ∧ (q < 24 ∨ c = 3)) ∧
      r = 365 * y + k :=
    ⟨min (r / 365) 3, r - 365 * min (r / 365) 3, by omega, by omega, by omega⟩
  refine ⟨400 * a + 100 * c + 4 * q + y + 1, k, by omega, ?_, ?_⟩
  · rw [daysInYear_cycle hc hq hy]
    split <;> omega
  · rw [daysBeforeYear_cycle hc hq hy]
    omega

/-- Every day of consecutive months is one of a month. -/
theorem exists_take_sum_add {lengths : List Nat} {n : Nat} (h : n < lengths.sum) :
    ∃ i day, i < lengths.length ∧ day < lengths.getD i 0 ∧ n = (lengths.take i).sum + day := by
  induction lengths generalizing n with
  | nil => simp at h
  | cons length rest ih =>
    by_cases hfirst : n < length
    · exact ⟨0, n, by simp, by simpa using hfirst, by simp⟩
    · rw [List.sum_cons] at h
      obtain ⟨i, day, hi, hday, hn⟩ := ih (show n - length < rest.sum by omega)
      refine ⟨i + 1, day, by simpa using hi, by simpa using hday, ?_⟩
      rw [List.take_succ_cons, List.sum_cons]
      omega

namespace Date

/-- A year is found from the number of any of its days, and the day in it. -/
theorem yearOfNumber_add {year k : Nat} (hyear : 1 ≤ year) (hk : k < daysInYear year) :
    yearOfNumber (daysBeforeYear year + k : Nat) = ((year : Int), k) := by
  obtain ⟨a, c, q, y, hc, hq, hy, rfl⟩ := exists_year_eq hyear
  rw [daysInYear_cycle hc hq hy] at hk
  have hcycle := yearInCycle_cycle hc hq hy hk
  have hless : 36524 * c + 1461 * q + 365 * y + k < 146097 := by split at hk <;> omega
  have hdiv : ((daysBeforeYear (400 * a + 100 * c + 4 * q + y + 1) + k : Nat) : Int) / 146097 = a := by
    rw [daysBeforeYear_cycle hc hq hy]
    omega
  have hmod : (((daysBeforeYear (400 * a + 100 * c + 4 * q + y + 1) + k : Nat) : Int) % 146097).toNat =
      36524 * c + 1461 * q + 365 * y + k := by
    rw [daysBeforeYear_cycle hc hq hy]
    omega
  simp only [yearOfNumber, hdiv, hmod, hcycle, Prod.mk.injEq, and_true]
  omega

/-- A day of a month is found from the days of the months before it. -/
theorem monthAndDay_add {lengths : List Nat} {i : Nat} (month day : Nat)
    (h : day < lengths.getD i 0) :
    monthAndDay month ((lengths.take i).sum + day) lengths = (month + i, day + 1) := by
  induction lengths generalizing i month with
  | nil => simp at h
  | cons length rest ih =>
    cases i with
    | zero =>
      have hday : day < length := by simpa using h
      simp [monthAndDay, hday]
    | succ i =>
      have hbeyond : ¬(length + (rest.take i).sum + day < length) := by omega
      have hrest : length + (rest.take i).sum + day - length = (rest.take i).sum + day := by omega
      rw [List.take_succ_cons, List.sum_cons, monthAndDay, if_neg hbeyond, hrest,
        ih (month + 1) (by simpa using h), Nat.add_assoc, Nat.add_comm 1 i]

theorem take_sum_add_lt {lengths : List Nat} {i day : Nat} (h : day < lengths.getD i 0) :
    (lengths.take i).sum + day < lengths.sum := by
  induction lengths generalizing i with
  | nil => simp at h
  | cons length rest ih =>
    cases i with
    | zero =>
      have : day < length := by simpa using h
      simp
      omega
    | succ i =>
      have := ih (i := i) (by simpa using h)
      simp
      omega

theorem ranges (d : Date) : 1 ≤ d.year ∧ d.year ≤ 9999 ∧ 1 ≤ d.month ∧ d.month ≤ 12 ∧ 1 ≤ d.day ∧
    d.day ≤ daysInMonth d.year d.month := by
  have h := d.inCalendar
  simpa only [isDate, isYear, Bool.and_eq_true, decide_eq_true_eq, and_assoc] using h

theorem day_le (d : Date) : d.day ≤ 31 := by
  have hall : ∀ leap, ∀ month < 13, (monthLengths leap).getD (month - 1) 0 ≤ 31 := by decide
  obtain ⟨-, -, -, hmonth, -, hday⟩ := d.ranges
  exact Nat.le_trans hday (hall _ _ (Nat.lt_succ_of_le hmonth))

theorem of?_self (d : Date) : of? d.year d.month d.day = some d := by
  rw [of?, dif_pos d.inCalendar]

theorem dayOfYear_lt (d : Date) :
    daysBeforeMonth d.year d.month + (d.day - 1) < daysInYear d.year := by
  obtain ⟨-, -, -, -, hday, hmonth⟩ := d.ranges
  rw [daysBeforeMonth_eq]
  exact take_sum_add_lt (by rw [← daysInMonth]; omega)

theorem yearOfNumber_number (d : Date) :
    yearOfNumber d.number = ((d.year : Int), daysBeforeMonth d.year d.month + (d.day - 1)) := by
  rw [number, Nat.add_assoc, yearOfNumber_add d.ranges.1 d.dayOfYear_lt]

theorem number_lt (d : Date) : d.number < 4000000 := by
  obtain ⟨hlow, hhigh, -⟩ := d.ranges
  have hday := d.dayOfYear_lt
  rw [daysInYear_eq] at hday
  unfold number daysBeforeYear
  simp only
  split at hday <;> omega

theorem ofNumber?_number (d : Date) : ofNumber? d.number = some d := by
  obtain ⟨-, -, hlow, -, hday, hmonth⟩ := d.ranges
  have hfound : monthAndDay 1 (daysBeforeMonth d.year d.month + (d.day - 1))
      (monthLengths (isLeapYear d.year)) = (d.month, d.day) := by
    rw [daysBeforeMonth_eq, monthAndDay_add _ _ (by rw [← daysInMonth]; omega)]
    simp only [Prod.mk.injEq]
    omega
  simp only [ofNumber?, yearOfNumber_number, Int.toNat_natCast, hfound, of?_self]

/-- The number of days from the first day of the year 1 to the last day of the year 9999. -/
def count : Nat := 3652059

theorem daysBeforeYear_add_lt {year k : Nat} (hyear : year ≤ 9999) (hk : k < daysInYear year) :
    daysBeforeYear year + k < count := by
  have hlast : daysInYear 9999 = 365 := by decide
  have hleap : daysInYear year ≤ 366 := by
    rw [daysInYear_eq]
    split <;> omega
  unfold daysBeforeYear count
  simp only
  by_cases h : year = 9999
  · subst h
    omega
  · omega

theorem exists_number_eq {n : Nat} (h : n < count) : ∃ d : Date, d.number = n := by
  obtain ⟨year, k, hyear, hk, rfl⟩ := exists_yearStart_add n
  have hlast : year ≤ 9999 := by
    unfold count daysBeforeYear at h
    simp only at h
    omega
  obtain ⟨i, day, hi, hday, rfl⟩ := exists_take_sum_add hk
  have hmonth : i < 12 := by
    have hlength : (monthLengths (isLeapYear year)).length = 12 := by
      cases isLeapYear year <;> rfl
    omega
  have hdate : isDate year (i + 1) (day + 1) = true := by
    simp only [isDate, isYear, Bool.and_eq_true, decide_eq_true_eq, daysInMonth,
      Nat.add_sub_cancel]
    omega
  refine ⟨⟨year, i + 1, day + 1, hdate⟩, ?_⟩
  rw [number, daysBeforeMonth_eq]
  simp only [Nat.add_sub_cancel]
  omega

theorem year_of_ofNumber? {n : Int} {d : Date} (h : ofNumber? n = some d) :
    d.year = (yearOfNumber n).1.toNat := by
  unfold ofNumber? of? at h
  simp only at h
  split at h
  · rw [← Option.some.inj h]
  · cases h

theorem yearOfNumber_nonpos {n : Int} (h : n < 0) : (yearOfNumber n).1 ≤ 0 := by
  have hless : (n % 146097).toNat < 146097 := by omega
  have hyear : (yearInCycle (n % 146097).toNat).1 < 400 := by
    unfold yearInCycle
    simp only
    omega
  unfold yearOfNumber
  simp only
  omega

theorem range_of_ofNumber? {n : Int} {d : Date} (h : ofNumber? n = some d) : 0 ≤ n ∧ n < count := by
  have hfound := year_of_ofNumber? h
  obtain ⟨hlow, hhigh, -⟩ := d.ranges
  have hn : 0 ≤ n := by
    refine Int.not_lt.mp fun hneg => ?_
    have := yearOfNumber_nonpos hneg
    omega
  obtain ⟨year, k, hyear, hk, hnumber⟩ := exists_yearStart_add n.toNat
  obtain rfl : n = (daysBeforeYear year + k : Nat) := by omega
  rw [yearOfNumber_add hyear hk, Int.toNat_natCast] at hfound
  have hcount := daysBeforeYear_add_lt (hfound ▸ hhigh) hk
  omega

/-- A day is found from its number only. -/
theorem ofNumber?_eq_some_iff {n : Int} {d : Date} : ofNumber? n = some d ↔ n = d.number := by
  constructor
  · intro h
    obtain ⟨hlow, hhigh⟩ := range_of_ofNumber? h
    obtain ⟨d', hd'⟩ := exists_number_eq (show n.toNat < count by omega)
    have hn : n = d'.number := by omega
    rw [hn, ofNumber?_number] at h
    rw [hn, Option.some.inj h]
  · rintro rfl
    exact ofNumber?_number d

/-- The numbers of days are those from zero up to the number of all days. -/
theorem exists_ofNumber?_iff {n : Int} : (∃ d, ofNumber? n = some d) ↔ 0 ≤ n ∧ n < count := by
  constructor
  · rintro ⟨d, h⟩
    exact range_of_ofNumber? h
  · rintro ⟨hlow, hhigh⟩
    obtain ⟨d, hd⟩ := exists_number_eq (show n.toNat < count by omega)
    exact ⟨d, ofNumber?_eq_some_iff.mpr (by omega)⟩

end Date

end Attest
