import KdSoftLmdb.Interop.Clr
import KdSoftLmdb.Interop.DbValue

/-!
# Spans as MDB_val and back

`DbValue.From` multiplies the count of elements with their size as `int`s, and the
product wraps. On the way back the size has to be an `int` that is not negative,
so a wrapped size is either rejected or stands for fewer bytes.
-/

namespace KdSoftLmdb.Interop

/-- An unmanaged type, by its `Unsafe.SizeOf<T>()`. -/
structure Unmanaged where
  sizeOf : Int32
  positive : 0 < sizeOf.toInt

/-- `byte` -/
def byte : Unmanaged := ⟨1, by decide⟩

/-- `ReadOnlySpan<T>` and `Span<T>`: the address of the first element and the count. -/
structure Span (T : Unmanaged) where
  reference : Nat
  length : Int32
  nonneg : 0 ≤ length.toInt

/-- The bytes of a span. -/
def Span.byteLength {T : Unmanaged} (span : Span T) : Int := span.length.toInt * T.sizeOf.toInt

/-- `DbValue` in a 64-bit process -/
structure DbValue where
  size : Int64
  data : Nat

namespace DbValue

variable {T : Unmanaged}

/-- `new DbValue(data, size)` with an `int` -/
def ofInt (data : Nat) (size : Int32) : DbValue := ⟨size.toInt64, data⟩

/-- What both `From<T>` do. -/
def ofElements (span : Span T) : DbValue := ofInt span.reference (span.length * T.sizeOf)

/-- `DbValue.From<T>(ReadOnlySpan<T>)` -/
def fromReadOnlySpan (span : Span T) : DbValue := ofElements span

/-- `DbValue.From<T>(Span<T>)` -/
def fromSpan (span : Span T) : DbValue := ofElements span

/-- `DbValue.From(ReadOnlySpan<byte>)` and `DbValue.From(Span<byte>)` -/
def fromBytes (span : Span byte) : DbValue := ofInt span.reference span.length

/-- `(int)Size`: the conversion of an `IntPtr` checks the range in any context. -/
def sizeAsInt (value : DbValue) : Except BclException Int32 :=
  if -2 ^ 31 ≤ value.size.toInt ∧ value.size.toInt < 2 ^ 31 then .ok value.size.toInt32
  else .error .overflow

/-- `new ReadOnlySpan<byte>(data, length)`, and the same for `Span<byte>` -/
def newSpan (data : Nat) (length : Int32) : Except BclException (Span byte) :=
  if nonneg : 0 ≤ length.toInt then .ok ⟨data, length, nonneg⟩
  else .error (.argumentOutOfRange "length")

def toReadOnlySpan (value : DbValue) : Except BclException (Span byte) := do
  let length ← value.sizeAsInt
  newSpan value.data length

def toSpan (value : DbValue) : Except BclException (Span byte) := do
  let length ← value.sizeAsInt
  newSpan value.data length

/-- A size is rejected unless it is an `int` that is not negative. -/
theorem toReadOnlySpan_eq_ok_iff {value : DbValue} {bytes : Span byte} :
    value.toReadOnlySpan = .ok bytes ↔
      bytes.reference = value.data ∧ bytes.length.toInt = value.size.toInt := by
  have narrowed := value.size.toInt_toInt32
  by_cases range : -2 ^ 31 ≤ value.size.toInt ∧ value.size.toInt < 2 ^ 31
  · rw [Int.bmod_eq_of_le (by omega) (by omega)] at narrowed
    have converts : value.sizeAsInt = .ok value.size.toInt32 := if_pos range
    have back : value.toReadOnlySpan = newSpan value.data value.size.toInt32 := by
      rw [toReadOnlySpan, converts]
      rfl
    rw [back, newSpan]
    split
    · rename_i nonneg
      constructor
      · intro made
        cases made
        exact ⟨rfl, narrowed⟩
      · rintro ⟨reference, length⟩
        have same : bytes.length = value.size.toInt32 :=
          Int32.toInt_inj.mp (length.trans narrowed.symm)
        cases bytes
        cases same
        cases reference
        rfl
    · rename_i negative
      have nonneg := bytes.nonneg
      constructor
      · intro made
        cases made
      · rintro ⟨-, length⟩
        omega
  · have rejects : value.toReadOnlySpan = .error .overflow := by
      rw [toReadOnlySpan, sizeAsInt, if_neg range]
      rfl
    have nonneg := bytes.nonneg
    have upper := bytes.length.toInt_lt
    rw [rejects]
    constructor
    · intro made
      cases made
    · rintro ⟨-, length⟩
      omega

/-- A span of bytes comes back. -/
theorem toReadOnlySpan_fromBytes (span : Span byte) :
    (fromBytes span).toReadOnlySpan = .ok span := by
  rw [toReadOnlySpan_eq_ok_iff]
  exact ⟨rfl, (Int32.toInt_toInt64 _).symm⟩

private theorem toInt_size_ofElements (span : Span T) :
    (ofElements span).size.toInt = span.byteLength.bmod (2 ^ 32) := by
  rw [ofElements, ofInt, Int32.toInt_toInt64, Int32.toInt_mul]
  rfl

private theorem byteLength_nonneg (span : Span T) : 0 ≤ span.byteLength :=
  Int.mul_nonneg span.nonneg (Int.le_of_lt T.positive)

/-- The size is the byte length of the span, and a span that is made of the value
has as many bytes. -/
structure Exact (span : Span T) (value : DbValue) : Prop where
  size : value.size.toInt = span.byteLength
  readOnly : ∀ bytes, value.toReadOnlySpan = .ok bytes → bytes.length.toInt = span.byteLength
  writable : ∀ bytes, value.toSpan = .ok bytes → bytes.length.toInt = span.byteLength

private theorem toInt_size_of_lt {span : Span T} (small : span.byteLength < 2 ^ 31) :
    (ofElements span).size.toInt = span.byteLength := by
  have nonneg := byteLength_nonneg span
  rw [toInt_size_ofElements]
  exact Int.bmod_eq_of_le (by omega) (by omega)

/-- A span whose size is an `int` comes back as its bytes. -/
theorem toReadOnlySpan_ofElements {span : Span T} (small : span.byteLength < 2 ^ 31) :
    ∃ bytes, (ofElements span).toReadOnlySpan = .ok bytes ∧
      bytes.reference = span.reference ∧ bytes.length.toInt = span.byteLength := by
  have nonneg := byteLength_nonneg span
  have length : (span.length * T.sizeOf).toInt = span.byteLength :=
    (Int32.toInt_toInt64 _).symm.trans (toInt_size_of_lt small)
  refine ⟨⟨span.reference, span.length * T.sizeOf, by omega⟩, ?_, rfl, length⟩
  rw [toReadOnlySpan_eq_ok_iff]
  exact ⟨rfl, length.trans (toInt_size_of_lt small).symm⟩

private theorem ofElements_exact_iff (span : Span T) :
    Exact span (ofElements span) ↔ span.byteLength < 2 ^ 31 := by
  constructor
  · intro exact'
    have size := exact'.size
    rw [toInt_size_ofElements] at size
    have bound := @Int.bmod_lt span.byteLength (2 ^ 32) (by decide)
    rw [size] at bound
    omega
  · intro small
    have size := toInt_size_of_lt small
    refine ⟨size, ?_, ?_⟩
    · intro bytes back
      rw [← size]
      exact (toReadOnlySpan_eq_ok_iff.mp back).2
    · intro bytes back
      rw [← size]
      exact (toReadOnlySpan_eq_ok_iff.mp back).2

/-- A span made of any value has exactly its size; a value made of a span has the
size of the span exactly when that is an `int`, and then the bytes come back. -/
theorem marshalling_exact_iff (T : Unmanaged) (span : Span T) :
    (∀ value bytes, toReadOnlySpan value = .ok bytes ∨ toSpan value = .ok bytes →
      bytes.length.toInt = value.size.toInt) ∧
    (Exact span (fromReadOnlySpan span) ↔ span.byteLength < 2 ^ 31) ∧
    (Exact span (fromSpan span) ↔ span.byteLength < 2 ^ 31) := by
  refine ⟨?_, ofElements_exact_iff span, ofElements_exact_iff span⟩
  rintro value bytes (back | back)
  · exact (toReadOnlySpan_eq_ok_iff.mp back).2
  · exact (toReadOnlySpan_eq_ok_iff.mp back).2

/-- Four gibibytes of 16-byte elements become an empty value. -/
theorem fromReadOnlySpan_truncates :
    (fromReadOnlySpan (⟨0x1000, 0x10000000, by decide⟩ : Span ⟨16, by decide⟩)).size = 0 ∧
    (⟨0x1000, 0x10000000, by decide⟩ : Span ⟨16, by decide⟩).byteLength = 4294967296 ∧
    (fromReadOnlySpan (⟨0x1000, 0x10000000, by decide⟩ : Span ⟨16, by decide⟩)).toReadOnlySpan =
      .ok ⟨0x1000, 0, by decide⟩ ∧
    ¬Exact (⟨0x1000, 0x10000000, by decide⟩ : Span ⟨16, by decide⟩)
      (fromReadOnlySpan (⟨0x1000, 0x10000000, by decide⟩ : Span ⟨16, by decide⟩)) := by
  refine ⟨by decide, by decide, rfl, ?_⟩
  intro exact'
  exact absurd exact'.size (by decide)

end DbValue

end KdSoftLmdb.Interop
