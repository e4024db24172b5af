import Attest.Proofs.Number.Rounding

/-! The order of whole and floating point numbers. Infinities are on either side of all others,
which are compared by their units, and what is not a number stands outside. -/

namespace Attest.Number

/-- A number comes before another one. -/
def IsBefore (x y : Number) : Prop := x.le y = true ∧ y.le x = false

/-- The side of all others on which a number is. -/
def side : Number → Int
  | float (.infinity negative) => if negative then -1 else 1
  | _ => 0

theorem le_eq_true_iff {x y : Number} : x.le y = true ↔ x ≠ float .nan ∧ y ≠ float .nan ∧
    (x.side < y.side ∨ x.side = y.side ∧ x.signedUnits ≤ y.signedUnits) := by
  have hinfinity (negative : Bool) : (float (.infinity negative)).signedUnits = 0 := by
    cases negative <;> rfl
  -- The order is defined pair by pair: each of the five kinds of numbers with each other one.
  rcases x with i | (_ | (_ | _) | ⟨sign, exponent, fraction⟩) <;>
    rcases y with j | (_ | (_ | _) | ⟨sign', exponent', fraction'⟩) <;>
    simp [le, side, hinfinity]

theorem le_trans {x y z : Number} (hxy : x.le y = true) (hyz : y.le z = true) : x.le z = true := by
  obtain ⟨hx, -, hside⟩ := le_eq_true_iff.mp hxy
  obtain ⟨-, hz, hside'⟩ := le_eq_true_iff.mp hyz
  exact le_eq_true_iff.mpr ⟨hx, hz, by omega⟩

theorem ne_nan_of_le {x y : Number} (h : x.le y = true) : x ≠ float .nan ∧ y ≠ float .nan :=
  ⟨(le_eq_true_iff.mp h).1, (le_eq_true_iff.mp h).2.1⟩

/-- A number that is not reached by another one is after it, or it is none. -/
theorem isBefore_or_eq_nan {x y : Number} (hx : x ≠ float .nan) (h : y.le x = false) :
    x.IsBefore y ∨ y = float .nan := by
  by_cases hy : y = float .nan
  · exact .inr hy
  · refine .inl ⟨le_eq_true_iff.mpr ⟨hx, hy, ?_⟩, h⟩
    have hnot := mt le_eq_true_iff.mpr (Bool.eq_false_iff.mp h)
    simp only [hx, hy, ne_eq, not_false_eq_true, true_and] at hnot
    omega

theorem int_le_int (i j : Int) : (int i).le (int j) = decide (i ≤ j) := by
  have hunits : (0 : Int) < Binary64.unitsPerOne := Int.natCast_pos.mpr Binary64.unitsPerOne_pos
  have hle : (int i).signedUnits ≤ (int j).signedUnits ↔ i ≤ j := Int.mul_le_mul_right hunits
  rw [Bool.eq_iff_iff, le_eq_true_iff, decide_eq_true_eq]
  constructor
  · rintro ⟨-, -, hless | ⟨-, h⟩⟩
    · exact absurd hless (Int.lt_irrefl 0)
    · exact hle.mp h
  · intro h
    exact ⟨nofun, nofun, .inr ⟨rfl, hle.mpr h⟩⟩

end Attest.Number
