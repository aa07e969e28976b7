import Mathlib

/-!
# Spans, and sizes as LMDB reads them

A span has an `int` length, so it holds fewer than `2 ^ 31` bytes. A size or a
count reaches LMDB through a sign-extending conversion and is read as `size_t`:
a negative one becomes a huge one.
-/

namespace KdSoftLmdb

/-- `ReadOnlySpan<byte>`, by its content. -/
structure ReadOnlySpan where
  bytes : List UInt8
  short : bytes.length < 2 ^ 31

namespace ReadOnlySpan

/-- `Length` -/
def length (span : ReadOnlySpan) : Int32 := .ofNat span.bytes.length

@[simp] theorem toInt_length (span : ReadOnlySpan) :
    span.length.toInt = span.bytes.length := Int32.toInt_ofNat_of_lt span.short

end ReadOnlySpan

namespace DbValue

/-- `unchecked((IntPtr)size)` in a 64-bit process, as `MDB_val.mv_size`. -/
def size (value : Int32) : BitVec 64 := value.toBitVec.signExtend 64

/-- A size that is not negative is passed as it is. -/
theorem toNat_size_of_nonneg {value : Int32} (nonneg : 0 ≤ value.toInt) :
    ((size value).toNat : Int) = value.toInt := by
  have extended : (size value).toInt = value.toInt := BitVec.toInt_signExtend_of_le (by decide)
  have small := value.toInt_lt
  rw [BitVec.toInt_eq_toNat_cond] at extended
  split at extended <;> omega

/-- A negative one becomes a huge `size_t`. -/
theorem le_toNat_size_of_neg {value : Int32} (negative : value.toInt < 0) :
    2 ^ 63 ≤ (size value).toNat := by
  have extended : (size value).toInt = value.toInt := BitVec.toInt_signExtend_of_le (by decide)
  rw [BitVec.toInt_eq_toNat_cond] at extended
  split at extended <;> omega

end DbValue

/-- A 32-bit product is the product unless it is out of range. -/
theorem toInt_mul_of_lt {left right : Int32}
    (lower : -2 ^ 31 ≤ left.toInt * right.toInt) (upper : left.toInt * right.toInt < 2 ^ 31) :
    (left * right).toInt = left.toInt * right.toInt := by
  rw [Int32.toInt_mul]
  exact Int.bmod_eq_of_le (by omega) (by omega)

end KdSoftLmdb
