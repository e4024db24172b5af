/-! Parts of a list: what follows a given beginning, and the pieces between separators. -/

namespace Attest.Text

/-- What is left of a list after the beginning `start`. -/
def after? {α : Type} [DecidableEq α] : (start xs : List α) → Option (List α)
  | [], xs => some xs
  | s :: start, x :: xs => if s = x then after? start xs else none
  | _ :: _, [] => none

theorem after?_eq_some_iff {α : Type} [DecidableEq α] {start xs rest : List α} :
    after? start xs = some rest ↔ xs = start ++ rest := by
  induction start generalizing xs with
  | nil => simp [after?]
  | cons s start ih =>
    cases xs with
    | nil => simp [after?]
    | cons x xs =>
      by_cases h : s = x
      · simp [after?, h, ih]
      · simp [after?, h, eq_comm (a := x)]

def beginsWith (start s : String) : Bool := (after? start.toList s.toList).isSome

/-- A list stands somewhere in another one. -/
def occursIn {α : Type} [DecidableEq α] (part : List α) : List α → Bool
  | [] => part.isEmpty
  | x :: rest => (after? part (x :: rest)).isSome || occursIn part rest

def endsWith (ending s : String) : Bool := (after? ending.toList.reverse s.toList.reverse).isSome

/-- The pieces of a list between separators, after the pieces `done` and inside the piece `piece`
(both last first). -/
def splitFrom {α : Type} [DecidableEq α] (separator : α) (done : List (List α)) (piece : List α) :
    List α → List (List α)
  | [] => (piece.reverse :: done).reverse
  | x :: rest =>
    if x = separator then splitFrom separator (piece.reverse :: done) [] rest
    else splitFrom separator done (x :: piece) rest

/-- The pieces of a list between separators: one more than there are separators. -/
def split {α : Type} [DecidableEq α] (separator : α) (xs : List α) : List (List α) :=
  splitFrom separator [] [] xs

theorem splitFrom_done {α : Type} [DecidableEq α] (separator : α) (done : List (List α))
    (piece xs : List α) :
    splitFrom separator done piece xs = done.reverse ++ splitFrom separator [] piece xs := by
  induction xs generalizing done piece with
  | nil => simp [splitFrom]
  | cons x xs ih =>
    by_cases h : x = separator
    · rw [splitFrom, splitFrom, if_pos h, if_pos h, ih, ih [piece.reverse]]
      simp
    · rw [splitFrom, splitFrom, if_neg h, if_neg h, ih]

theorem splitFrom_append {α : Type} [DecidableEq α] (separator : α) (done : List (List α))
    (piece xs ys : List α) :
    splitFrom separator done piece (xs ++ separator :: ys) =
      splitFrom separator done piece xs ++ split separator ys := by
  induction xs generalizing done piece with
  | nil =>
    have hcut : splitFrom separator done piece (separator :: ys) =
        splitFrom separator (piece.reverse :: done) [] ys := by rw [splitFrom, if_pos rfl]
    rw [List.nil_append, hcut, splitFrom_done, splitFrom, split]
  | cons x xs ih =>
    by_cases h : x = separator
    · simp [splitFrom, h, ih]
    · simp [splitFrom, h, ih]

/-- The pieces on both sides of a separator are cut apart separately. -/
theorem split_append {α : Type} [DecidableEq α] (separator : α) (xs ys : List α) :
    split separator (xs ++ separator :: ys) = split separator xs ++ split separator ys :=
  splitFrom_append separator [] [] xs ys

theorem splitFrom_of_not_mem {α : Type} [DecidableEq α] {separator : α} {xs : List α}
    (h : separator ∉ xs) (done : List (List α)) (piece : List α) :
    splitFrom separator done piece xs = done.reverse ++ [piece.reverse ++ xs] := by
  induction xs generalizing piece with
  | nil => simp [splitFrom]
  | cons x xs ih =>
    simp only [List.mem_cons, not_or] at h
    simp [splitFrom, Ne.symm h.1, ih h.2]

/-- A list without the separator is one piece. -/
theorem split_of_not_mem {α : Type} [DecidableEq α] {separator : α} {xs : List α}
    (h : separator ∉ xs) : split separator xs = [xs] := by
  simp [split, splitFrom_of_not_mem h]

theorem split_ne_nil {α : Type} [DecidableEq α] (separator : α) (xs : List α) :
    split separator xs ≠ [] := by
  by_cases h : separator ∈ xs
  · obtain ⟨first, rest, rfl, hfirst⟩ := List.eq_append_cons_of_mem h
    rw [split_append, split_of_not_mem hfirst]
    simp
  · rw [split_of_not_mem h]
    simp

/-- A list that is one piece has no separator. -/
theorem split_eq_singleton_iff {α : Type} [DecidableEq α] {separator : α} {xs piece : List α} :
    split separator xs = [piece] ↔ xs = piece ∧ separator ∉ piece := by
  constructor
  · intro hsplit
    by_cases h : separator ∈ xs
    · obtain ⟨first, rest, rfl, hfirst⟩ := List.eq_append_cons_of_mem h
      rw [split_append, split_of_not_mem hfirst] at hsplit
      exact absurd (List.cons.inj hsplit).2 (split_ne_nil separator rest)
    · rw [split_of_not_mem h] at hsplit
      obtain rfl := List.head_eq_of_cons_eq hsplit
      exact ⟨rfl, h⟩
  · rintro ⟨rfl, h⟩
    exact split_of_not_mem h

/-- The first of several pieces ends at the first separator. -/
theorem split_eq_cons_iff {α : Type} [DecidableEq α] {separator : α} {xs piece next : List α}
    {others : List (List α)} :
    split separator xs = piece :: next :: others ↔
      ∃ rest, xs = piece ++ separator :: rest ∧ separator ∉ piece ∧
        split separator rest = next :: others := by
  constructor
  · intro hsplit
    by_cases h : separator ∈ xs
    · obtain ⟨first, rest, rfl, hfirst⟩ := List.eq_append_cons_of_mem h
      rw [split_append, split_of_not_mem hfirst] at hsplit
      obtain ⟨rfl, hrest⟩ := List.cons.inj hsplit
      exact ⟨rest, rfl, hfirst, hrest⟩
    · rw [split_of_not_mem h] at hsplit
      simp at hsplit
  · rintro ⟨rest, rfl, hpiece, hrest⟩
    rw [split_append, split_of_not_mem hpiece, hrest]
    rfl

end Attest.Text
