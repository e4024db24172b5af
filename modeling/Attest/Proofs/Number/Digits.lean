import Attest.Number.Literal
import Mathlib.Data.List.TakeWhile

/-! Whole numbers in the digits of any script: a text stands for one exactly if all its characters are
decimal digits, of which there are some but not too many. -/

namespace Attest

/-- The character is a digit of a decimal numeral, unlike a digit that is raised or circled. -/
def isDecimal (c : Char) : Bool := (Text.decimalValue? c).isSome

/-- The number that digits stand for after `n`. -/
def decimalNumber (n : Nat) (cs : List Char) : Nat :=
  cs.foldl (fun m c => 10 * m + (Text.decimalValue? c).getD 0) n

theorem decimalFrom_eq (n count : Nat) (cs : List Char) :
    decimalFrom n count cs =
      (decimalNumber n (cs.takeWhile isDecimal), count + (cs.takeWhile isDecimal).length,
        cs.dropWhile isDecimal) := by
  induction cs generalizing n count with
  | nil => rfl
  | cons c rest ih =>
    rw [decimalFrom]
    split
    · rename_i d hd
      have hdecimal : isDecimal c = true := by
        rw [isDecimal, hd]
        rfl
      rw [ih, List.takeWhile_cons_of_pos hdecimal, List.dropWhile_cons_of_pos hdecimal,
        List.length_cons, Nat.add_right_comm, Nat.add_assoc]
      simp only [decimalNumber, List.foldl_cons, hd, Option.getD_some]
    · rename_i hnone
      have hdecimal : ¬isDecimal c = true := by
        rw [isDecimal, hnone]
        exact Bool.false_ne_true
      rw [List.takeWhile_cons_of_neg hdecimal, List.dropWhile_cons_of_neg hdecimal]
      rfl

theorem readDigits_eq (cs : List Char) :
    readDigits cs =
      if Json.digitLimit < (cs.takeWhile isDecimal).length then
        .error (.tooManyDigits (cs.takeWhile isDecimal).length)
      else if (cs.takeWhile isDecimal).length = 0 || !(cs.dropWhile isDecimal).isEmpty then
        .error (.notNumeral (String.ofList cs))
      else .ok (decimalNumber 0 (cs.takeWhile isDecimal)) := by
  rw [readDigits, decimalFrom_eq, Nat.zero_add]

/-- A text that stands for a number consists of decimal digits, and the number is theirs. -/
theorem readDigits_eq_ok_iff {cs : List Char} {n : Nat} :
    readDigits cs = .ok n ↔
      cs ≠ [] ∧ (∀ c ∈ cs, isDecimal c = true) ∧ cs.length ≤ Json.digitLimit ∧
        n = decimalNumber 0 cs := by
  rw [readDigits_eq]
  by_cases hdecimal : ∀ c ∈ cs, isDecimal c = true
  · have htake : cs.takeWhile isDecimal = cs := List.takeWhile_eq_self_iff.mpr hdecimal
    have hdrop : cs.dropWhile isDecimal = [] := List.dropWhile_eq_nil_iff.mpr hdecimal
    rw [htake, hdrop]
    split
    · rename_i hlimit
      exact iff_of_false nofun fun h => Nat.not_le.mpr hlimit h.2.2.1
    · rename_i hlimit
      split
      · rename_i hnone
        have hnil : cs = [] := by simpa using hnone
        exact iff_of_false nofun fun h => h.1 hnil
      · rename_i hsome
        have hne : cs ≠ [] := by simpa using hsome
        constructor
        · intro h
          exact ⟨hne, hdecimal, Nat.not_lt.mp hlimit, (Except.ok.inj h).symm⟩
        · rintro ⟨-, -, -, rfl⟩
          rfl
  · have hdrop : (cs.dropWhile isDecimal).isEmpty = false := by
      rw [Bool.eq_false_iff, Ne, List.isEmpty_iff, List.dropWhile_eq_nil_iff]
      exact hdecimal
    refine iff_of_false ?_ fun h => hdecimal h.2.1
    rw [hdrop, Bool.not_false, Bool.or_true, if_pos rfl]
    split <;> nofun

end Attest
