import KdSoftLmdb.Library.Utf16

/-!
# What the interop helpers take from .NET

Byte arrays and strings with the lengths .NET allows them, the UTF-8 encoder and
decoder, and the exceptions that array accesses, allocations and copies end with.
-/

namespace KdSoftLmdb

/-- The exceptions of the .NET library that the helpers can end with. -/
inductive BclException where
  | argument (message : String)
  | argumentNull (paramName : String)
  | argumentOutOfRange (paramName : String)
  | indexOutOfRange
  | outOfMemory
  | overflow
  | accessViolation
deriving DecidableEq

/-- The longest byte array that .NET makes. -/
def Buffer.maxLength : Nat := 0x7FFFFFC7

/-- `byte[]` -/
structure Buffer where
  bytes : List UInt8
  short : bytes.length ≤ Buffer.maxLength

namespace Buffer

@[ext] theorem ext {left right : Buffer} (same : left.bytes = right.bytes) : left = right := by
  cases left
  cases right
  congr

/-- `Length` -/
def length (buffer : Buffer) : Int32 := .ofNat buffer.bytes.length

/-- The length of an array is an `int`. -/
theorem short_int (buffer : Buffer) : buffer.bytes.length < 2 ^ 31 :=
  Nat.lt_of_le_of_lt buffer.short (by decide)

@[simp] theorem toInt_length (buffer : Buffer) : buffer.length.toInt = buffer.bytes.length :=
  Int32.toInt_ofNat_of_lt buffer.short_int

/-- The array has an element at this index. -/
def has (buffer : Buffer) (index : Int32) : Prop :=
  0 ≤ index.toInt ∧ index.toInt < buffer.bytes.length

instance (buffer : Buffer) (index : Int32) : Decidable (buffer.has index) :=
  inferInstanceAs (Decidable (_ ∧ _))

/-- The array with another element at an index. -/
def set (buffer : Buffer) (index : Nat) (byte : UInt8) : Buffer :=
  ⟨buffer.bytes.set index byte, by rw [List.length_set]; exact buffer.short⟩

/-- `new byte[size]` with the given bytes in front. -/
def allocate (front : List UInt8) (size : Int32) : Except BclException Buffer :=
  let bytes := (front ++ .replicate (size.toInt.toNat - front.length) 0).take size.toInt.toNat
  if short : bytes.length ≤ maxLength then .ok ⟨bytes, short⟩ else .error .outOfMemory

/-- `Array.Resize(ref buffer, size)` -/
def resize (buffer : Option Buffer) (size : Int32) : Except BclException (Option Buffer) :=
  if size.toInt < 0 then .error (.argumentOutOfRange "newSize")
  else (allocate (buffer.elim [] bytes) size).map some

/-- Bytes written to the front of an array that has room for them. -/
def overwrite (buffer : Buffer) (front : List UInt8)
    (room : front.length ≤ buffer.bytes.length) : Buffer :=
  ⟨front ++ buffer.bytes.drop front.length, by
    have short := buffer.short
    rw [List.length_append, List.length_drop]
    omega⟩

/-- A size that the runtime takes is allocated. -/
theorem allocate_eq {front : List UInt8} {size : Int32} (fits : size.toInt ≤ maxLength)
    (atLeast : front.length ≤ size.toInt) :
    ∃ buffer, allocate front size = .ok buffer ∧ (buffer.bytes.length : Int) = size.toInt := by
  have whole : (front ++ .replicate (size.toInt.toNat - front.length) (0 : UInt8)).length =
      size.toInt.toNat := by
    rw [List.length_append, List.length_replicate]
    omega
  have length : ((front ++ .replicate (size.toInt.toNat - front.length) (0 : UInt8)).take
      size.toInt.toNat).length = size.toInt.toNat := by
    rw [List.length_take, whole, Nat.min_self]
  refine ⟨_, dif_pos (by omega), ?_⟩
  dsimp only
  omega

/-- A larger one is not. -/
theorem allocate_of_lt {front : List UInt8} {size : Int32} (beyond : maxLength < size.toInt) :
    allocate front size = .error .outOfMemory := by
  refine dif_neg ?_
  rw [List.length_take, List.length_append, List.length_replicate]
  omega

end Buffer

/-- A .NET string, by its code units. -/
structure ClrString where
  units : List UInt16
  short : units.length < 2 ^ 31

namespace ClrString

/-- `Length` -/
def length (str : ClrString) : Int32 := .ofNat str.units.length

@[simp] theorem toInt_length (str : ClrString) : str.length.toInt = str.units.length :=
  Int32.toInt_ofNat_of_lt str.short

/-- `string.Empty` -/
def empty : ClrString := ⟨[], by decide⟩

/-- A new string; none is longer than an `int` says. -/
def ofUnits (units : List UInt16) : Except BclException ClrString :=
  if short : units.length < 2 ^ 31 then .ok ⟨units, short⟩ else .error .outOfMemory

/-- The code units of a string are that string again. -/
theorem ofUnits_units (str : ClrString) : ofUnits str.units = .ok str := dif_pos str.short

/-- The bytes of the string in UTF-8. -/
def utf8 (str : ClrString) : List UInt8 := Utf16.utf8 (Utf16.decode str.units)

end ClrString

/-- `UTF8Encoding`: whether it was configured to reject what it cannot convert,
and what its decoder otherwise makes of bytes that are not UTF-8. -/
structure UTF8Encoding where
  throwOnInvalid : Bool
  replaced : List UInt8 → List UInt16

namespace UTF8Encoding

/-- `GetMaxByteCount(charCount)` -/
def getMaxByteCount (charCount : Int32) : Except BclException Int32 :=
  if 3 * (charCount.toInt + 1) < 2 ^ 31 then .ok (3 * (charCount + 1))
  else .error (.argumentOutOfRange "charCount")

/-- `GetBytes(str, 0, str.Length, buffer, 0)`: the count of the bytes and the buffer
with them in front. -/
def getBytes (utf8 : UTF8Encoding) (str : ClrString) (buffer : Option Buffer) :
    Except BclException (Int32 × Buffer) :=
  match buffer with
  | none => .error (.argumentNull "bytes")
  | some buffer =>
      if utf8.throwOnInvalid && !Utf16.paired str.units then
        .error (.argument "Unable to translate Unicode character to specified code page.")
      else if room : str.utf8.length ≤ buffer.bytes.length then
        .ok (.ofNat str.utf8.length, buffer.overwrite str.utf8 room)
      else .error (.argument "The output byte buffer is too small.")

/-- The characters of bytes that are UTF-8. -/
def characters (bytes : List UInt8) : Option (List Char) :=
  (bytes.toByteArray.utf8Decode?).map Array.toList

/-- `GetString(buffer, 0, count)` -/
def getString (utf8 : UTF8Encoding) (buffer : Buffer) (count : Int32) :
    Except BclException ClrString :=
  let bytes := buffer.bytes.take count.toInt.toNat
  match characters bytes with
  | some chars => ClrString.ofUnits (Utf16.encode chars)
  | none =>
      if utf8.throwOnInvalid then
        .error (.argument "Unable to translate bytes from specified code page to Unicode.")
      else ClrString.ofUnits (utf8.replaced bytes)

/-- UTF-8 bytes give the characters back. -/
theorem characters_utf8 (chars : List Char) : characters (Utf16.utf8 chars) = some chars := by
  have encoded : (Utf16.utf8 chars).toByteArray = chars.utf8Encode := rfl
  rw [characters, encoded, List.utf8Decode?_utf8Encode]
  rfl

end UTF8Encoding

/-- A `byte*`: null, or the bytes that can be read from the address on. -/
abbrev BytePointer := Option (List UInt8)

/-- `Marshal.Copy(source, destination, 0, length)` -/
def marshalCopy (source : List UInt8) (destination : Option Buffer) (length : Int32) :
    Except BclException Buffer :=
  match destination with
  | none => .error (.argumentNull "destination")
  | some buffer =>
      if length.toInt < 0 then .error (.argumentOutOfRange "length")
      else if source.length < length.toInt then .error .accessViolation
      else if room : (source.take length.toInt.toNat).length ≤ buffer.bytes.length then
        .ok (buffer.overwrite (source.take length.toInt.toNat) room)
      else .error (.argumentOutOfRange "length")

end KdSoftLmdb
