import Attest.Proofs.Calendar.Iso8601

/-! The day of a date that is followed by a time. How many bytes give it and which day it is depends on the
bytes at the front, up to the time of day, and not on those behind them. -/

namespace Attest

namespace Iso8601

theorem numberAfter_append {width : Nat} {front : Bytes} (h : width ≤ front.length) (n : Nat)
    (x : Bytes) : numberAfter n width (front ++ x) =
      (numberAfter n width front).map fun r => (r.1, r.2 ++ x) := by
  induction width generalizing front n with
  | zero =>
    unfold numberAfter
    rfl
  | succ width ih =>
    cases front with
    | nil => simp at h
    | cons b front =>
      rw [List.cons_append, numberAfter, numberAfter]
      cases digit? b with
      | none => rfl
      | some d => exact ih (Nat.le_of_succ_le_succ h) (10 * n + d)

theorem number_append {width : Nat} {front : Bytes} (h : width ≤ front.length) (x : Bytes) :
    number width (front ++ x) = (number width front).map fun r => (r.1, r.2 ++ x) :=
  numberAfter_append h 0 x

theorem length_of_numberAfter {width n m : Nat} {text rest : Bytes}
    (h : numberAfter n width text = some (m, rest)) : rest.length + width = text.length := by
  induction width generalizing text n with
  | zero =>
    unfold numberAfter at h
    cases h
    rfl
  | succ width ih =>
    cases text with
    | nil => cases h
    | cons b text =>
      rw [numberAfter] at h
      cases hd : digit? b with
      | none =>
        rw [hd] at h
        cases h
      | some d =>
        rw [hd] at h
        rw [List.length_cons, ← ih h, Nat.add_assoc]

theorem hyphen_append {front : Bytes} (h : front ≠ []) (extended : Bool) (x : Bytes) :
    hyphen extended (front ++ x) = (hyphen extended front).map (· ++ x) := by
  obtain ⟨b, front, rfl⟩ := List.exists_cons_of_ne_nil h
  unfold hyphen
  cases extended with
  | false => rfl
  | true =>
    simp only [if_true, List.cons_append]
    split <;> rfl

theorem length_of_hyphen {extended : Bool} {text rest : Bytes}
    (h : hyphen extended text = some rest) : text.length ≤ rest.length + 1 := by
  unfold hyphen at h
  split at h
  · split at h
    · split at h
      · cases h
        exact Nat.le_refl _
      · cases h
    · cases h
  · cases h
    exact Nat.le_succ _

theorem head?_append_of_pos {front : Bytes} (h : 0 < front.length) (x : Bytes) :
    (front ++ x).head? = front.head? := by
  obtain ⟨b, front, rfl⟩ := List.exists_cons_of_length_pos h
  rfl

theorem bind_number_append {α : Type} {width : Nat} {front x : Bytes} {f g : Nat × Bytes → Option α}
    (h : width ≤ front.length) (hcongr : ∀ n rest, rest.length + width = front.length →
      f (n, rest ++ x) = g (n, rest)) :
    (number width (front ++ x)).bind f = (number width front).bind g := by
  rw [number_append h, Option.bind_map]
  exact Option.bind_congr fun r hr => hcongr r.1 r.2 (length_of_numberAfter hr)

theorem bind_hyphen_append {α : Type} {extended : Bool} {front x : Bytes} {f g : Bytes → Option α}
    (h : 0 < front.length) (hcongr : ∀ rest, front.length ≤ rest.length + 1 →
      f (rest ++ x) = g rest) :
    (hyphen extended (front ++ x)).bind f = (hyphen extended front).bind g := by
  rw [hyphen_append (List.ne_nil_of_length_pos h), Option.bind_map]
  exact Option.bind_congr fun r hr => hcongr r (length_of_hyphen hr)

/-- The year takes four bytes, and the week or the month, with the day, at most six, one of them for each
hyphen. -/
theorem date_append {front : Bytes} (h : 10 ≤ front.length) (length : Nat) (x : Bytes) :
    Iso8601.date length (front ++ x) = Iso8601.date length front := by
  have hread (rest : Bytes) :
      (front ++ x).length - (rest ++ x).length = front.length - rest.length := by
    simp only [List.length_append]
    omega
  unfold Iso8601.date
  simp only [Option.bind_eq_bind]
  refine bind_number_append (by omega) fun year rest hrest => ?_
  have hpos : 0 < rest.length := by omega
  simp only [head?_append_of_pos hpos, List.tail_append_of_ne_nil (List.ne_nil_of_length_pos hpos)]
  generalize (rest.head? == some (byte '-')) = extended
  obtain ⟨rest', hrest', hlength⟩ : ∃ r : Bytes,
      r = (if extended = true then rest.tail else rest) ∧ 5 ≤ r.length := by
    refine ⟨_, rfl, ?_⟩
    split
    · rw [List.length_tail]
      omega
    · omega
  have hsplit : (if extended = true then rest.tail ++ x else rest ++ x) = rest' ++ x := by
    rw [hrest']
    split <;> rfl
  have hpos' : 0 < rest'.length := by omega
  rw [hsplit, ← hrest', head?_append_of_pos hpos',
    List.tail_append_of_ne_nil (List.ne_nil_of_length_pos hpos')]
  split
  · have htail : rest'.tail.length = rest'.length - 1 := List.length_tail
    refine bind_number_append (by omega) fun week after hafter => ?_
    simp only [hread]
    congr 1
    refine bind_hyphen_append (by omega) fun after' hafter' => ?_
    exact bind_number_append (by omega) fun _ _ _ => rfl
  · refine bind_number_append (by omega) fun month after hafter => ?_
    refine bind_hyphen_append (by omega) fun after' hafter' => ?_
    refine bind_number_append (by omega) fun day after'' _ => ?_
    simp only [hread]

theorem takeWhile_append_of_stop {p : UInt8 → Bool} {x : Bytes} (hx : x.takeWhile p = [])
    (front : Bytes) : (front ++ x).takeWhile p = front.takeWhile p := by
  induction front with
  | nil => exact hx
  | cons b front ih =>
    rw [List.cons_append, List.takeWhile_cons, List.takeWhile_cons, ih]

theorem seven_le_dateLength {text : Bytes} {length : Nat} (h : dateLength text = some length) :
    7 ≤ length := by
  unfold dateLength at h
  simp only at h
  repeat' split at h
  all_goals cases h <;> omega

/-- In a long text the bytes after the tenth only tell a week alone from a week and a day. -/
theorem dateLength_of_le {text : Bytes} (h : 10 ≤ text.length) : dateLength text =
    if text[4]? == some (byte '-') then
      if text[5]? == some (byte 'W') then
        if text[8]? == some (byte '-') then
          if text[10]?.any isDigit then some 8 else some 10
        else some 8
      else some 10
    else if text[4]? == some (byte 'W') then
      let stop := 7 + ((text.drop 7).takeWhile isDigit).length
      some (if stop < 9 then stop else if stop % 2 = 0 then 7 else 8)
    else some 8 := by
  have hshort : ¬text.length < 7 := by omega
  have hseven : ¬text.length = 7 := by omega
  have hnine : ¬text.length = 9 := by omega
  have height : 8 < text.length := by omega
  have hten : (decide (10 < text.length) && text[10]?.any isDigit) = text[10]?.any isDigit := by
    by_cases hlong : 10 < text.length
    · rw [decide_eq_true hlong, Bool.true_and]
    · rw [List.getElem?_eq_none (by omega), Option.any_none, Bool.and_false]
  unfold dateLength
  simp only [if_neg hshort, if_neg hseven, if_neg hnine, decide_eq_true height, Bool.true_and, hten]

/-- What follows the time of day does not tell where the day ends, unless it begins with a digit. -/
theorem dateLength_append_iff {front x : Bytes} {length : Nat} (hx : x.takeWhile isDigit = [])
    (hlow : 10 ≤ front.length) (hfront : length + 3 ≤ front.length) :
    dateLength (front ++ x) = some length ↔ dateLength front = some length := by
  have hget {i : Nat} (hi : i < front.length) : (front ++ x)[i]? = front[i]? :=
    List.getElem?_append_left hi
  have hdigits : ((front ++ x).drop 7).takeWhile isDigit = (front.drop 7).takeWhile isDigit := by
    rw [List.drop_append_of_le_length (by omega), takeWhile_append_of_stop hx]
  rw [dateLength_of_le hlow, dateLength_of_le (by rw [List.length_append]; omega),
    hget (show 4 < front.length by omega), hget (show 5 < front.length by omega),
    hget (show 8 < front.length by omega), hdigits]
  by_cases hlong : 10 < front.length
  · rw [hget hlong]
  · -- Then there is room for a day of seven bytes only, which has no hyphens.
    split
    · refine iff_of_false ?_ ?_
      all_goals
        intro h
        repeat' split at h
        all_goals
          cases h
          omega
    · exact Iff.rfl

end Iso8601

end Attest
