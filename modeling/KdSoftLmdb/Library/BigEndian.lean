import Mathlib

/-!
# Big-endian numerals

A number as a fixed count of bytes, the most significant one first. Reading and
writing are inverse in both directions (`BigEndian.value_digits`,
`BigEndian.digits_value`), and numerals of one width compare byte by byte as the
numbers do (`BigEndian.compareLex_eq_compare_value`).
-/

namespace KdSoftLmdb.BigEndian

/-- The number that the bytes stand for. -/
def value : List UInt8 → Nat
  | [] => 0
  | byte :: rest => byte.toNat * 256 ^ rest.length + value rest

/-- The last `width` digits of a number. -/
def digits : Nat → Nat → List UInt8
  | 0, _ => []
  | width + 1, number => .ofNat (number / 256 ^ width) :: digits width number

@[simp] theorem length_digits (width number : Nat) : (digits width number).length = width := by
  induction width with
  | zero => rfl
  | succ width ih => rw [digits, List.length_cons, ih]

/-- Bytes have a number below the power of their count. -/
theorem value_lt (bytes : List UInt8) : value bytes < 256 ^ bytes.length := by
  induction bytes with
  | nil => exact Nat.one_pos
  | cons byte rest ih =>
      have bound : (byte.toNat + 1) * 256 ^ rest.length ≤ 256 * 256 ^ rest.length :=
        Nat.mul_le_mul_right _ byte.toNat_lt
      rw [value, List.length_cons, Nat.pow_succ']
      rw [Nat.succ_mul] at bound
      omega

/-- Writing and reading loses what does not fit. -/
theorem value_digits (width number : Nat) : value (digits width number) = number % 256 ^ width := by
  induction width with
  | zero => exact (Nat.mod_one number).symm
  | succ width ih =>
      have split : number % 256 ^ (width + 1) =
          number % 256 ^ width + 256 ^ width * (number / 256 ^ width % 256) := by
        rw [Nat.pow_succ, Nat.mod_mul]
      rw [digits, value, length_digits, ih, UInt8.toNat_ofNat', split, Nat.mul_comm, Nat.add_comm]

/-- A number that fits comes back from its digits. -/
theorem value_digits_of_lt {width number : Nat} (fits : number < 256 ^ width) :
    value (digits width number) = number := by
  rw [value_digits, Nat.mod_eq_of_lt fits]

/-- Digits beyond the width do not matter. -/
theorem digits_add_mul (width number factor : Nat) :
    digits width (factor * 256 ^ width + number) = digits width number := by
  induction width generalizing factor with
  | zero => rfl
  | succ width ih =>
      have tail := ih (factor * 256)
      rw [Nat.mul_assoc, ← Nat.pow_succ'] at tail
      have head : (factor * 256 ^ (width + 1) + number) / 256 ^ width =
          256 * factor + number / 256 ^ width := by
        rw [Nat.pow_succ', ← Nat.mul_assoc, Nat.add_comm,
          Nat.add_mul_div_right _ _ (Nat.pow_pos (by decide)), Nat.add_comm, Nat.mul_comm factor]
      rw [digits, digits, tail, head]
      congr 1
      apply UInt8.toNat_inj.mp
      rw [UInt8.toNat_ofNat', UInt8.toNat_ofNat', Nat.mul_add_mod]

/-- Reading and writing back changes nothing. -/
theorem digits_value (bytes : List UInt8) : digits bytes.length (value bytes) = bytes := by
  induction bytes with
  | nil => rfl
  | cons byte rest ih =>
      rw [List.length_cons, digits, value, digits_add_mul, ih, Nat.mul_comm,
        Nat.mul_add_div (Nat.pow_pos (by decide)), Nat.div_eq_of_lt (value_lt rest), Nat.add_zero,
        UInt8.ofNat_toNat]

private theorem compare_toNat (left right : UInt8) :
    compare left right = compare left.toNat right.toNat := by
  rw [Nat.compare_eq_ite_lt]
  simp only [compare, compareOfLessAndEq, UInt8.lt_iff_toNat_lt, ← UInt8.toNat_inj]
  grind

/-- The first digit decides unless it is the same. -/
theorem compare_add_mul {bound left right low high : Nat} (small : low < bound)
    (small' : high < bound) :
    compare (left * bound + low) (right * bound + high) =
      (compare left right).then (compare low high) := by
  rcases Nat.lt_trichotomy left right with less | rfl | greater
  · have step : (left + 1) * bound ≤ right * bound := Nat.mul_le_mul_right _ less
    rw [Nat.succ_mul] at step
    rw [Nat.compare_eq_lt.mpr less, Nat.compare_eq_lt.mpr (by omega)]
    rfl
  · rw [Nat.compare_eq_eq.mpr rfl, Ordering.eq_then]
    simp only [Nat.compare_eq_ite_lt, Nat.add_lt_add_iff_left]
  · have step : (right + 1) * bound ≤ left * bound := Nat.mul_le_mul_right _ greater
    rw [Nat.succ_mul] at step
    rw [Nat.compare_eq_gt.mpr greater, Nat.compare_eq_gt.mpr (by omega)]
    rfl

/-- Numerals of one width compare byte by byte as the numbers do. -/
theorem compareLex_eq_compare_value {left right : List UInt8}
    (same : left.length = right.length) :
    List.compareLex compare left right = compare (value left) (value right) := by
  induction left generalizing right with
  | nil =>
      rw [List.length_nil] at same
      rw [List.length_eq_zero_iff.mp same.symm]
      rfl
  | cons byte rest ih =>
      cases right with
      | nil => cases same
      | cons other more =>
          have tail : rest.length = more.length := Nat.succ.inj same
          rw [List.compareLex_cons_cons, ih tail, value, value, tail,
            compare_add_mul (tail ▸ value_lt rest) (value_lt more), compare_toNat]

end KdSoftLmdb.BigEndian
