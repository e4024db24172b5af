import Attest.Proofs.Calendar.Range
import Attest.Proofs.Number.Truncation
import Attest.Proofs.Run

/-! The whole seconds that a point in time is taken for. They are those of a floating point number
without its fraction, so that a fraction of a second is dropped towards the epoch, and a point very near
before the next second is taken for it. The text in universal time always shows the second in which the
point lies. -/

namespace Attest.DateTime

/-- The seconds without fraction that a floating point number has for some microseconds. -/
def secondsOf (i : Int) : Int :=
  if i < 0 then -(Binary64.wholeOf i.natAbs microsecondsPerSecond : Int)
  else Binary64.wholeOf i.natAbs microsecondsPerSecond

theorem natAbs_instant_lt (t : DateTime) : t.instant.natAbs < 2 ^ 40 * microsecondsPerSecond := by
  have hnumber := t.date.number_lt
  have htime := t.time.microseconds_lt
  have hoffset : ((t.offset.map Offset.microseconds).getD 0).natAbs < microsecondsPerDay := by
    cases t.offset with
    | none => decide
    | some o => exact o.inRange
  unfold instant localMicroseconds epochDay
  unfold microsecondsPerDay microsecondsPerSecond at *
  omega

theorem div_instant_lt (t : DateTime) : t.instant.natAbs / microsecondsPerSecond < 2 ^ 52 := by
  have hless := (Nat.div_lt_iff_lt_mul microsecondsPerSecond_pos).mpr t.natAbs_instant_lt
  omega

theorem toSeconds_eq_secondsOf (t : DateTime) : t.toSeconds = secondsOf t.instant := by
  apply toSeconds_of_truncate
  rw [toBinary64, Binary64.truncate_round microsecondsPerSecond_pos (by decide) t.div_instant_lt,
    secondsOf]
  simp only [decide_eq_true_eq]

/-- Some microseconds are taken for the second in which they lie: they are whole seconds, or they
are after the epoch and not taken for the next second, or before the epoch and so near after their
second that they are taken for it. -/
inductive KeepsSecond : Int → Prop
  | whole {i : Int} (h : (microsecondsPerSecond : Int) ∣ i) : KeepsSecond i
  | after {i : Int} (h : 0 ≤ i) (hnot : Binary64.carries i.natAbs microsecondsPerSecond = false) :
    KeepsSecond i
  | before {i : Int} (h : i < 0) (hcarries : Binary64.carries i.natAbs microsecondsPerSecond = true) :
    KeepsSecond i

theorem secondsOf_of_dvd {i : Int} (h : (microsecondsPerSecond : Int) ∣ i) :
    secondsOf i = i / microsecondsPerSecond := by
  have hnot := Binary64.carries_of_dvd microsecondsPerSecond_pos (Int.ofNat_dvd_left.mp h)
  rw [secondsOf, Binary64.wholeOf_of_not_carries hnot]
  unfold microsecondsPerSecond at *
  split <;> omega

theorem secondsOf_eq_div_iff {i : Int} : secondsOf i = i / microsecondsPerSecond ↔ KeepsSecond i := by
  by_cases hwhole : (microsecondsPerSecond : Int) ∣ i
  · exact iff_of_true (secondsOf_of_dvd hwhole) (.whole hwhole)
  have hrest : ¬(1000000 : Int) ∣ i := hwhole
  rw [secondsOf]
  -- A fraction is dropped towards the epoch, which is down only after it. The next whole number is
  -- further from the epoch, which is down only before it.
  cases hcarries : Binary64.carries i.natAbs microsecondsPerSecond with
  | false =>
    have hiff : KeepsSecond i ↔ 0 ≤ i := by
      refine ⟨fun h => ?_, fun h => .after h hcarries⟩
      cases h with
      | whole h => exact absurd h hwhole
      | after h _ => exact h
      | before _ h => rw [hcarries] at h; cases h
    rw [hiff, Binary64.wholeOf_of_not_carries hcarries]
    unfold microsecondsPerSecond
    split <;> omega
  | true =>
    have hiff : KeepsSecond i ↔ i < 0 := by
      refine ⟨fun h => ?_, fun h => .before h hcarries⟩
      cases h with
      | whole h => exact absurd h hwhole
      | after _ h => rw [hcarries] at h; cases h
      | before h _ => exact h
    rw [hiff, Binary64.wholeOf_of_carries hcarries]
    unfold microsecondsPerSecond
    split <;> omega

theorem keepsSecond_of_lt {i : Int} (hlow : 0 ≤ i) (hhigh : i < 2 ^ 34 * microsecondsPerSecond) :
    KeepsSecond i := by
  apply KeepsSecond.after hlow
  have hwhole : i.natAbs / microsecondsPerSecond < 2 ^ 34 := by
    unfold microsecondsPerSecond at *
    omega
  have hlog : (i.natAbs / microsecondsPerSecond).log2 ≤ 33 := by
    by_cases hzero : i.natAbs / microsecondsPerSecond = 0
    · rw [hzero, Nat.log2_zero]
      omega
    · exact Nat.le_of_lt_succ ((Nat.log2_lt hzero).mpr hwhole)
  have hmissing : 1 ≤ microsecondsPerSecond - i.natAbs % microsecondsPerSecond :=
    Nat.sub_pos_of_lt (Nat.mod_lt _ microsecondsPerSecond_pos)
  have hplaces : 20 ≤ Binary64.binaryPlaces (i.natAbs / microsecondsPerSecond) + 1 := by
    unfold Binary64.binaryPlaces
    omega
  rw [Binary64.carries, reachesNext, decide_eq_false_iff_not, Nat.not_le]
  -- A single microsecond is more than half of the last binary place.
  calc microsecondsPerSecond
    _ < 2 ^ 20 := by decide
    _ ≤ 2 ^ (Binary64.binaryPlaces (i.natAbs / microsecondsPerSecond) + 1) :=
      Nat.pow_le_pow_right (by decide) hplaces
    _ ≤ _ := Nat.le_mul_of_pos_left _ hmissing

/-- A reading without its fraction of a second. -/
def atWholeSecond (t : DateTime) : DateTime :=
  { t with time := { t.time with microsecond := ⟨0, microsecondsPerSecond_pos⟩ } }

theorem instant_atWholeSecond (t : DateTime) :
    t.atWholeSecond.instant + t.time.microsecond = t.instant := by
  unfold atWholeSecond instant localMicroseconds TimeOfDay.microseconds
  simp only
  omega

theorem ofSeconds_of_universal {t : DateTime} (h : t.offset = some .zero) :
    ofSeconds (t.instant / microsecondsPerSecond) 0 = .ok t.atWholeSecond := by
  have hsecond : t.atWholeSecond = atSecond t.date t.time.hour t.time.minute t.time.second := by
    unfold atWholeSecond atSecond
    rw [h]
  have hinstant := t.instant_atWholeSecond
  rw [hsecond, instant_atSecond] at hinstant
  have hless := t.time.microsecond.isLt
  have hdiv : t.instant / microsecondsPerSecond =
      secondsAt t.date t.time.hour t.time.minute t.time.second := by
    unfold microsecondsPerSecond at *
    omega
  rw [hdiv, hsecond]
  exact ofSeconds_secondsAt _ _ _ _

theorem universalText_atWholeSecond (t : DateTime) :
    t.atWholeSecond.universalText = t.universalText := rfl

theorem toUniversal_eq_ok {t u : DateTime} (h : t.toUniversal = .ok u) :
    u.instant = t.instant ∧ u.offset = some .zero := by
  unfold toUniversal at h
  cases hoffset : t.offset with
  | none =>
    simp only [hoffset] at h
    split at h
    · cases h
    · cases h
      unfold instant
      rw [hoffset]
      exact ⟨rfl, rfl⟩
  | some o =>
    simp only [hoffset] at h
    split at h
    · rename_i hfound
      cases h
      exact ofInstant?_eq_some_iff.mp hfound
    · cases h

theorem format_eq_second {t : DateTime} {text : String} (h : t.format = .ok text) :
    ∃ u : DateTime, ofSeconds (t.instant / microsecondsPerSecond) 0 = .ok u ∧
      u.universalText = text := by
  obtain ⟨u, hu, htext⟩ := Except.map_eq_ok_iff.mp h
  obtain ⟨hinstant, hoffset⟩ := toUniversal_eq_ok hu
  refine ⟨u.atWholeSecond, ?_, (universalText_atWholeSecond u).trans htext⟩
  rw [← hinstant]
  exact ofSeconds_of_universal hoffset

end Attest.DateTime
