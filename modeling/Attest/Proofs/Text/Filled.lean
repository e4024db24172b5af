import Attest.Calendar.Timestamp
import Attest.Text.Hex

/-! Numerals of a fixed width, filled with zeros on the left: the last digit is that of the remainder
and the digits before it are the numeral of the quotient, however many of them are zeros. -/

namespace Attest

/-- The numeral of `n`, filled with zeros on the left up to `width` digits. -/
def filled (base width n : Nat) : List Char :=
  List.replicate (width - (Nat.toDigits base n).length) '0' ++ Nat.toDigits base n

theorem Text.hex_eq_filled (width n : Nat) : Text.hex width n = filled 16 width n := rfl

theorem DateTime.padded_eq_filled (width n : Nat) : DateTime.padded width n = filled 10 width n := rfl

theorem filled_one {base n : Nat} (h : n < base) : filled base 1 n = [Nat.digitChar n] := by
  rw [filled, Nat.toDigits_of_lt_base h]
  rfl

theorem filled_succ {base width : Nat} (hbase : 1 < base) (hwidth : width ≠ 0) (n : Nat) :
    filled base (width + 1) n = filled base width (n / base) ++ [Nat.digitChar (n % base)] := by
  by_cases h : n < base
  · -- The quotient is zero, and its numeral has one digit although it adds nothing.
    have hzero : filled base width 0 = List.replicate width '0' := by
      rw [filled, Nat.toDigits_of_lt_base (Nat.zero_lt_of_lt hbase), List.length_singleton]
      show _ ++ List.replicate 1 '0' = _
      rw [List.replicate_append_replicate, Nat.sub_add_cancel (Nat.one_le_iff_ne_zero.mpr hwidth)]
    rw [Nat.div_eq_of_lt h, Nat.mod_eq_of_lt h, hzero, filled, Nat.toDigits_of_lt_base h]
    rfl
  · rw [filled, Nat.toDigits_of_base_le hbase (Nat.le_of_not_lt h), filled, List.length_append,
      List.length_singleton, Nat.add_sub_add_right, List.append_assoc]

/-- Each digit of a number that the width has room for is that of a quotient. -/
theorem filled_eq_map {base width n : Nat} (hbase : 1 < base) (hwidth : width ≠ 0)
    (h : n < base ^ width) :
    filled base width n =
      (List.range width).reverse.map fun i => Nat.digitChar (n / base ^ i % base) := by
  induction width generalizing n with
  | zero => exact absurd rfl hwidth
  | succ width ih =>
    have hlast : (List.range (width + 1)).reverse = ((List.range width).reverse.map Nat.succ) ++ [0] := by
      rw [List.range_succ_eq_map, List.reverse_cons, List.map_reverse]
    cases width with
    | zero =>
      have hn : n < base := by rwa [Nat.zero_add, Nat.pow_one] at h
      rw [filled_one hn]
      show _ = [Nat.digitChar (n / base ^ 0 % base)]
      rw [Nat.pow_zero, Nat.div_one, Nat.mod_eq_of_lt hn]
    | succ width =>
      have hquotient : n / base < base ^ (width + 1) :=
        Nat.div_lt_of_lt_mul (by rwa [Nat.pow_succ, Nat.mul_comm] at h)
      have hnext (i : Nat) : n / base ^ i.succ % base = n / base / base ^ i % base := by
        rw [Nat.pow_succ, Nat.mul_comm, Nat.div_div_eq_div_mul]
      rw [filled_succ hbase (Nat.succ_ne_zero _), ih (Nat.succ_ne_zero _) hquotient, hlast,
        List.map_append, List.map_map]
      simp only [Function.comp_def, hnext, List.map_cons, List.map_nil, Nat.pow_zero, Nat.div_one]

theorem Text.hex_four {n : Nat} (h : n < 0x10000) :
    Text.hex 4 n = [Text.hexDigit (n / 0x1000), Text.hexDigit (n / 0x100 % 0x10),
      Text.hexDigit (n / 0x10 % 0x10), Text.hexDigit (n % 0x10)] := by
  rw [Text.hex_eq_filled, filled_succ (by decide) (by decide), filled_succ (by decide) (by decide),
    filled_succ (by decide) (by decide), filled_one (by omega)]
  simp only [Nat.div_div_eq_div_mul]
  rfl

end Attest
