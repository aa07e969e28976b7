import KdSoftLmdb.Interop.Clr
import KdSoftLmdb.Interop.Content
import KdSoftLmdb.Interop.DbValue
import KdSoftLmdb.Library.BigEndian

/-!
# DbLibUtil

The conversions between strings and null-terminated UTF-8, and between an
unsigned integer and the four bytes of a key that sorts like it.
-/

namespace KdSoftLmdb.DbLibUtil

section BigEndian

/-- `bytes[index] = byte` -/
def writeAt (index : Int32) (byte : UInt8) : Method Buffer BclException Unit := do
  let buffer ← .get
  if buffer.has index then .modify fun buffer => buffer.set index.toInt.toNat byte
  else .throw .indexOutOfRange

/-- `bytes[index]` -/
def readAt (index : Int32) : Method Buffer BclException UInt8 := do
  let buffer ← .get
  if buffer.has index then pure (buffer.bytes.getD index.toInt.toNat 0)
  else .throw .indexOutOfRange

def uInt32ToBEBytes (num : UInt32) (index : Int32) : Method Buffer BclException Unit := do
  writeAt index (num >>> 24).toUInt8
  let index := index + 1
  writeAt index ((num &&& 0x00FF0000) >>> 16).toUInt8
  let index := index + 1
  writeAt index ((num &&& 0x0000FF00) >>> 8).toUInt8
  let index := index + 1
  writeAt index (num &&& 0x000000FF).toUInt8

def bEBytesToUInt32 (index : Int32) : Method Buffer BclException UInt32 := do
  let first ← readAt index
  let result := first.toUInt32 <<< 24
  let index := index + 1
  let second ← readAt index
  let result := result ||| second.toUInt32 <<< 16
  let index := index + 1
  let third ← readAt index
  let result := result ||| third.toUInt32 <<< 8
  let index := index + 1
  let last ← readAt index
  pure (result ||| last.toUInt32)

/-- The four bytes at an index. -/
def window (buffer : Buffer) (index : Int32) : List UInt8 :=
  (buffer.bytes.drop index.toInt.toNat).take 4

/-- A mask of eight bits and a shift cut a digit out. -/
theorem and_mask_shiftRight (number shift : Nat) :
    (number &&& 255 <<< shift) >>> shift = number / 2 ^ shift % 256 := by
  have mask : (255 <<< shift) >>> shift = 2 ^ 8 - 1 := Nat.shiftLeft_shiftRight 255 shift
  rw [Nat.shiftRight_and_distrib, mask, Nat.and_two_pow_sub_one_eq_mod, Nat.shiftRight_eq_div_pow]

/-- The four shifts and masks give the digits of the number. -/
theorem digits_toNat (num : UInt32) :
    BigEndian.digits 4 num.toNat = [(num >>> 24).toUInt8, ((num &&& 0x00FF0000) >>> 16).toUInt8,
      ((num &&& 0x0000FF00) >>> 8).toUInt8, (num &&& 0x000000FF).toUInt8] := by
  have second := and_mask_shiftRight num.toNat 16
  have third := and_mask_shiftRight num.toNat 8
  have last := and_mask_shiftRight num.toNat 0
  simp only [Nat.reduceShiftLeft, Nat.shiftRight_zero, Nat.pow_zero, Nat.div_one]
    at second third last
  simp only [BigEndian.digits, List.cons.injEq, ← UInt8.toNat_inj, UInt8.toNat_ofNat',
    UInt32.toNat_toUInt8, UInt32.toNat_shiftRight, UInt32.toNat_and, UInt32.reduceToNat,
    Nat.reduceMod, second, third, last, Nat.mod_mod]
  simp [Nat.shiftRight_eq_div_pow]

private theorem shiftLeft_or {low width : Nat} (high : Nat) (small : low < 2 ^ width) :
    high <<< width ||| low = high * 2 ^ width + low := by
  rw [← Nat.shiftLeft_add_eq_or_of_lt small, Nat.shiftLeft_eq]

/-- The four shifts put the number together from its digits. -/
theorem toNat_or_shiftLeft (first second third last : UInt8) :
    (first.toUInt32 <<< 24 ||| second.toUInt32 <<< 16 ||| third.toUInt32 <<< 8 |||
      last.toUInt32).toNat = BigEndian.value [first, second, third, last] := by
  have bound₁ := first.toNat_lt
  have bound₂ := second.toNat_lt
  have bound₃ := third.toNat_lt
  have bound₄ := last.toNat_lt
  simp only [BigEndian.value, UInt32.toNat_or, UInt32.toNat_shiftLeft, UInt8.toNat_toUInt32,
    UInt32.reduceToNat, Nat.reduceMod]
  rw [Nat.mod_eq_of_lt (a := first.toNat <<< 24) (by omega),
    Nat.mod_eq_of_lt (a := second.toNat <<< 16) (by omega),
    Nat.mod_eq_of_lt (a := third.toNat <<< 8) (by omega)]
  rw [Nat.lor_assoc, Nat.lor_assoc, shiftLeft_or third.toNat bound₄,
    shiftLeft_or second.toNat (by omega), shiftLeft_or first.toNat (by omega)]
  simp only [List.length_cons, List.length_nil]
  omega

private theorem toInt_succ {index : Int32} {bound : Nat} (nonneg : 0 ≤ index.toInt)
    (below : index.toInt < bound) (short : bound < 2 ^ 31) :
    (index + 1).toInt = index.toInt + 1 := by
  rw [Int32.toInt_add]
  exact Int.bmod_eq_of_le (by simp; omega) (by simp; omega)

section Positions

variable {buffer : Buffer} {index : Int32} {front back : List UInt8} {old : UInt8}

private theorem has_of_eq (position : (front.length : Int) = index.toInt)
    (whole : buffer.bytes = front ++ old :: back) : buffer.has index := by
  rw [Buffer.has, whole, List.length_append, List.length_cons]
  omega

private theorem readAt_of_eq (position : (front.length : Int) = index.toInt)
    (whole : buffer.bytes = front ++ old :: back) : readAt index buffer = some (.ok old, buffer) := by
  have same : index.toInt.toNat = front.length := by omega
  rw [readAt, Method.get_bind, if_pos (has_of_eq position whole), whole, same]
  simp [List.getD]

private theorem writeAt_of_eq (position : (front.length : Int) = index.toInt)
    (whole : buffer.bytes = front ++ old :: back) (byte : UInt8) :
    ∃ after, writeAt index byte buffer = some (.ok (), after) ∧
      after.bytes = front ++ [byte] ++ back := by
  have same : index.toInt.toNat = front.length := by omega
  rw [writeAt, Method.get_bind, if_pos (has_of_eq position whole)]
  refine ⟨_, rfl, ?_⟩
  simp [Buffer.set, same, whole]

/-- The next position is the next index. -/
theorem position_succ (position : (front.length : Int) = index.toInt)
    (whole : buffer.bytes = front ++ old :: back) (byte : UInt8) :
    (((front ++ [byte]).length : Nat) : Int) = (index + 1).toInt := by
  have has := has_of_eq position whole
  rw [toInt_succ has.1 has.2 buffer.short_int, List.length_append, ← position]
  rfl

end Positions

variable {buffer : Buffer} {index : Int32} {front back : List UInt8}
  {first second third last : UInt8}

/-- The four bytes are replaced by the digits of the number, and no other. -/
theorem uInt32ToBEBytes_of_eq (position : (front.length : Int) = index.toInt)
    (whole : buffer.bytes = front ++ [first, second, third, last] ++ back) (num : UInt32) :
    ∃ after, uInt32ToBEBytes num index buffer = some (.ok (), after) ∧
      after.bytes = front ++ BigEndian.digits 4 num.toNat ++ back := by
  rw [List.append_assoc] at whole
  obtain ⟨after₁, wrote₁, whole₁⟩ := writeAt_of_eq position whole (num >>> 24).toUInt8
  have position₁ := position_succ position whole (num >>> 24).toUInt8
  obtain ⟨after₂, wrote₂, whole₂⟩ :=
    writeAt_of_eq position₁ whole₁ ((num &&& 0x00FF0000) >>> 16).toUInt8
  have position₂ := position_succ position₁ whole₁ ((num &&& 0x00FF0000) >>> 16).toUInt8
  obtain ⟨after₃, wrote₃, whole₃⟩ :=
    writeAt_of_eq position₂ whole₂ ((num &&& 0x0000FF00) >>> 8).toUInt8
  have position₃ := position_succ position₂ whole₂ ((num &&& 0x0000FF00) >>> 8).toUInt8
  obtain ⟨after₄, wrote₄, whole₄⟩ := writeAt_of_eq position₃ whole₃ (num &&& 0x000000FF).toUInt8
  refine ⟨after₄, ?_, ?_⟩
  · rw [uInt32ToBEBytes, Method.bind_of_ok wrote₁, Method.bind_of_ok wrote₂,
      Method.bind_of_ok wrote₃, wrote₄]
  · rw [whole₄, digits_toNat]
    simp

/-- The number that the four bytes stand for is read. -/
theorem bEBytesToUInt32_of_eq (position : (front.length : Int) = index.toInt)
    (whole : buffer.bytes = front ++ [first, second, third, last] ++ back) :
    ∃ num, bEBytesToUInt32 index buffer = some (.ok num, buffer) ∧
      num.toNat = BigEndian.value [first, second, third, last] := by
  rw [List.append_assoc] at whole
  have whole₁ : buffer.bytes = front ++ [first] ++ second :: third :: last :: back := by simp [whole]
  have whole₂ : buffer.bytes = front ++ [first] ++ [second] ++ third :: last :: back := by
    simp [whole]
  have whole₃ : buffer.bytes = front ++ [first] ++ [second] ++ [third] ++ last :: back := by
    simp [whole]
  have position₁ := position_succ position whole first
  have position₂ := position_succ position₁ whole₁ second
  have position₃ := position_succ position₂ whole₂ third
  refine ⟨_, ?_, toNat_or_shiftLeft first second third last⟩
  rw [bEBytesToUInt32, Method.bind_of_ok (readAt_of_eq position whole),
    Method.bind_of_ok (readAt_of_eq position₁ whole₁),
    Method.bind_of_ok (readAt_of_eq position₂ whole₂),
    Method.bind_of_ok (readAt_of_eq position₃ whole₃)]
  rfl

/-- Four bytes fit at the index. -/
theorem exists_four (nonneg : 0 ≤ index.toInt) (room : index.toInt + 4 ≤ buffer.bytes.length) :
    ∃ front back first second third last, (front.length : Int) = index.toInt ∧
      buffer.bytes = front ++ [first, second, third, last] ++ back := by
  have size : ((buffer.bytes.drop index.toInt.toNat).take 4).length = 4 := by
    rw [List.length_take, List.length_drop]
    omega
  obtain ⟨first, second, third, last, four⟩ := List.length_eq_four.mp size
  refine ⟨buffer.bytes.take index.toInt.toNat, buffer.bytes.drop (index.toInt.toNat + 4), first,
    second, third, last, ?_, ?_⟩
  · rw [List.length_take]
    omega
  · rw [← four, List.append_assoc, ← List.drop_drop, List.take_append_drop, List.take_append_drop]

/-- The bytes outside the four at an index are the same. -/
def SameOutside (index : Int32) (buffer after : Buffer) : Prop :=
  after.bytes.length = buffer.bytes.length ∧ ∀ position : Nat,
    position < index.toInt ∨ index.toInt + 4 ≤ position →
      after.bytes[position]? = buffer.bytes[position]?

private theorem sameOutside_of_eq {after : Buffer} {middle middle' : List UInt8}
    (position : (front.length : Int) = index.toInt) (four : middle.length = 4)
    (four' : middle'.length = 4) (whole : buffer.bytes = front ++ middle ++ back)
    (whole' : after.bytes = front ++ middle' ++ back) : SameOutside index buffer after := by
  refine ⟨by rw [whole, whole']; simp [four, four'], fun place outside => ?_⟩
  rw [whole, whole']
  rcases outside with before | beyond
  · rw [List.append_assoc, List.append_assoc, List.getElem?_append_left (by omega),
      List.getElem?_append_left (by omega)]
  · have left : (front ++ middle).length = front.length + 4 := by rw [List.length_append, four]
    have right : (front ++ middle').length = front.length + 4 := by rw [List.length_append, four']
    rw [List.getElem?_append_right (by omega), List.getElem?_append_right (by omega), left, right]

private theorem window_of_eq {middle : List UInt8} (position : (front.length : Int) = index.toInt)
    (four : middle.length = 4) (whole : buffer.bytes = front ++ middle ++ back) :
    window buffer index = middle := by
  rw [window, whole, List.append_assoc, List.drop_left' (by omega), List.take_left' four]

private theorem value_toNat (num : UInt32) :
    BigEndian.value (BigEndian.digits 4 num.toNat) = num.toNat :=
  BigEndian.value_digits_of_lt num.toNat_lt

/-- What is written at the index is read back from there. -/
theorem bEBytesToUInt32_of_digits {num : UInt32} (position : (front.length : Int) = index.toInt)
    (whole : buffer.bytes = front ++ BigEndian.digits 4 num.toNat ++ back) :
    bEBytesToUInt32 index buffer = some (.ok num, buffer) := by
  obtain ⟨first, second, third, last, four⟩ :=
    List.length_eq_four.mp (BigEndian.length_digits 4 num.toNat)
  rw [four] at whole
  obtain ⟨read, ran, same⟩ := bEBytesToUInt32_of_eq position whole
  rw [← four, value_toNat] at same
  rw [ran, UInt32.toNat_inj.mp same]

/-- The digits of the number that stands at the index are what stands there. -/
theorem uInt32ToBEBytes_of_value {num : UInt32} (position : (front.length : Int) = index.toInt)
    (whole : buffer.bytes = front ++ [first, second, third, last] ++ back)
    (same : num.toNat = BigEndian.value [first, second, third, last]) :
    uInt32ToBEBytes num index buffer = some (.ok (), buffer) := by
  obtain ⟨after, wrote, whole'⟩ := uInt32ToBEBytes_of_eq position whole num
  have digits : BigEndian.digits 4 num.toNat = [first, second, third, last] := by
    rw [same]
    exact BigEndian.digits_value [first, second, third, last]
  have unchanged : after = buffer := Buffer.ext (by rw [whole', digits, whole])
  rw [wrote, unchanged]

/-- Writing a number changes the four bytes at the index only, it is read back from
there, writing back what is read changes nothing, and two numbers compare as the
bytes written for them do. -/
theorem beBytes_correct (buffer : Buffer) (index : Int32) (nonneg : 0 ≤ index.toInt)
    (room : index.toInt + 4 ≤ buffer.bytes.length) :
    (∀ num, ∃ after, uInt32ToBEBytes num index buffer = some (.ok (), after) ∧
      SameOutside index buffer after ∧ bEBytesToUInt32 index after = some (.ok num, after)) ∧
    (∃ num, bEBytesToUInt32 index buffer = some (.ok num, buffer) ∧
      uInt32ToBEBytes num index buffer = some (.ok (), buffer)) ∧
    ∀ n m after after', uInt32ToBEBytes n index buffer = some (.ok (), after) →
      uInt32ToBEBytes m index buffer = some (.ok (), after') →
      (n < m ↔ bytewise.compare (window after index) (window after' index) = .lt) := by
  obtain ⟨front, back, first, second, third, last, position, whole⟩ := exists_four nonneg room
  refine ⟨?_, ?_, ?_⟩
  · intro num
    obtain ⟨after, wrote, whole'⟩ := uInt32ToBEBytes_of_eq position whole num
    exact ⟨after, wrote, sameOutside_of_eq position rfl (BigEndian.length_digits 4 _) whole whole',
      bEBytesToUInt32_of_digits position whole'⟩
  · obtain ⟨num, ran, same⟩ := bEBytesToUInt32_of_eq position whole
    exact ⟨num, ran, uInt32ToBEBytes_of_value position whole same⟩
  · intro n m after after' wrote wrote'
    obtain ⟨_, ran, left⟩ := uInt32ToBEBytes_of_eq position whole n
    obtain ⟨_, ran', right⟩ := uInt32ToBEBytes_of_eq position whole m
    cases wrote.symm.trans ran
    cases wrote'.symm.trans ran'
    have lengths := BigEndian.length_digits 4
    have order : bytewise.compare (window after index) (window after' index) =
        compare n.toNat m.toNat := by
      rw [window_of_eq position (lengths _) left, window_of_eq position (lengths _) right]
      have compared := BigEndian.compareLex_eq_compare_value
        ((lengths n.toNat).trans (lengths m.toNat).symm)
      rw [value_toNat, value_toNat] at compared
      exact compared
    rw [order, Nat.compare_eq_lt, UInt32.lt_iff_toNat_lt]

/-- `0x01020304` in the middle of seven bytes. -/
theorem beBytes_correct_seven :
    (∀ num, ∃ after, uInt32ToBEBytes num 2 ⟨[9, 9, 9, 9, 9, 9, 9], by decide⟩ =
        some (.ok (), after) ∧
      SameOutside 2 ⟨[9, 9, 9, 9, 9, 9, 9], by decide⟩ after ∧
      bEBytesToUInt32 2 after = some (.ok num, after)) ∧
    uInt32ToBEBytes 0x01020304 2 ⟨[9, 9, 9, 9, 9, 9, 9], by decide⟩ =
      some (.ok (), ⟨[9, 9, 1, 2, 3, 4, 9], by decide⟩) :=
  ⟨(beBytes_correct ⟨[9, 9, 9, 9, 9, 9, 9], by decide⟩ 2 (by decide) (by decide)).1, rfl⟩

end BigEndian

section Utf8

/-- The scan for the terminator, with the count of the bytes before it. -/
def scan : List UInt8 → Nat → Except BclException Int32
  | [], _ => .error .accessViolation
  | byte :: rest, count => if byte = 0 then .ok (.ofNat count) else scan rest (count + 1)

def byteStrLen (str : BytePointer) : Except BclException Int32 :=
  match str with
  | none => .ok 0
  | some memory => scan memory 0

/-- `buffer == null ? 0 : buffer.Length` -/
def lengthOrZero (buffer : Option Buffer) : Int32 := buffer.elim 0 Buffer.length

/-- `if (size > length) Array.Resize(ref buffer, size)` -/
def ensure (buffer : Option Buffer) (size : Int32) : Except BclException (Option Buffer) :=
  if lengthOrZero buffer < size then Buffer.resize buffer size else .ok buffer

/-- `PtrToBuffer(bytePtr, ref buffer)`: the size and the buffer it leaves. -/
def ptrToBuffer (bytePtr : BytePointer) (buffer : Option Buffer) :
    Except BclException (Int32 × Option Buffer) := do
  let size ← byteStrLen bytePtr
  let buffer ← ensure buffer size
  match bytePtr with
  | none => pure (size, buffer)
  | some source => do
      let copied ← marshalCopy source buffer size
      pure (size, some copied)

/-- `StrToUtf8(str, utf8, ref buffer)`: the byte count and the buffer it leaves. -/
def strToUtf8With (str : Option ClrString) (utf8 : UTF8Encoding) (buffer : Option Buffer) :
    Except BclException (Int32 × Option Buffer) :=
  match str with
  | none => .ok (0, buffer)
  | some str => do
      let count ← UTF8Encoding.getMaxByteCount str.length
      -- the addition is before the last shift, so that a terminator fits
      let buffer ← ensure buffer (((count >>> 2) + 1) <<< 2)
      let (count, buffer) ← utf8.getBytes str buffer
      if buffer.has count then pure (count + 1, some (buffer.set count.toInt.toNat 0))
      else .error .indexOutOfRange

/-- `Encoding.UTF8` replaces what it cannot convert. -/
def encodingUTF8 (replaced : List UInt8 → List UInt16) : UTF8Encoding := ⟨false, replaced⟩

variable (replaced : List UInt8 → List UInt16)

/-- `StrToUtf8(str, ref buffer)` -/
def strToUtf8 (str : Option ClrString) (buffer : Option Buffer) :
    Except BclException (Int32 × Option Buffer) :=
  strToUtf8With str (encodingUTF8 replaced) buffer

/-- `Utf8PtrToString(utf8, ref buffer)`: the string and the buffer it leaves. -/
def utf8PtrToStringWith (utf8 : BytePointer) (buffer : Option Buffer) :
    Except BclException (ClrString × Option Buffer) := do
  let (count, buffer) ← ptrToBuffer utf8 buffer
  if 0 < count then
    match buffer with
    | none => .error (.argumentNull "bytes")
    | some bytes => do
        let str ← (encodingUTF8 replaced).getString bytes count
        pure (str, buffer)
  else pure (ClrString.empty, buffer)

/-- `Utf8PtrToString(utf8)` -/
def utf8PtrToString (utf8 : BytePointer) : Except BclException ClrString := do
  let (str, _) ← utf8PtrToStringWith replaced utf8 none
  pure str

/-- The string is written with its terminator, and both readers give it back. -/
def RoundTrips (str : ClrString) (buffer scratch : Option Buffer) : Prop :=
  ∃ count after, strToUtf8 replaced (some str) buffer = .ok (count, some after) ∧
    count.toInt = str.utf8.length + 1 ∧
    after.bytes.take (str.utf8.length + 1) = str.utf8 ++ [0] ∧
    (∃ used, utf8PtrToStringWith replaced (some after.bytes) scratch = .ok (str, used)) ∧
    utf8PtrToString replaced (some after.bytes) = .ok str

/-- The terminator is found. -/
theorem scan_append {front rest : List UInt8} (nonzero : 0 ∉ front) (count : Nat) :
    scan (front ++ 0 :: rest) count = .ok (.ofNat (count + front.length)) := by
  induction front generalizing count with
  | nil => rfl
  | cons byte front ih =>
      rw [List.mem_cons, not_or] at nonzero
      rw [List.cons_append, scan, if_neg (Ne.symm nonzero.1), ih nonzero.2, List.length_cons,
        Nat.add_right_comm]
      rfl

private theorem toInt_lengthOrZero (buffer : Option Buffer) :
    (lengthOrZero buffer).toInt = (buffer.elim [] Buffer.bytes).length := by
  cases buffer with
  | none => rfl
  | some buffer => exact buffer.toInt_length

/-- A size that .NET allows is there afterwards. -/
theorem ensure_of_le (buffer : Option Buffer) {size : Int32}
    (positive : 0 < size.toInt) (fits : size.toInt ≤ Buffer.maxLength) :
    ∃ after, ensure buffer size = .ok (some after) ∧ size.toInt ≤ after.bytes.length := by
  have length := toInt_lengthOrZero buffer
  rw [ensure]
  split
  · rename_i short
    rw [Int32.lt_iff_toInt_lt, length] at short
    obtain ⟨after, made, same⟩ := Buffer.allocate_eq fits (Int.le_of_lt short)
    refine ⟨after, ?_, Int.le_of_eq same.symm⟩
    rw [Buffer.resize, if_neg (by omega), made]
    rfl
  · rename_i enough
    rw [Int32.lt_iff_toInt_lt, length] at enough
    cases buffer with
    | none => simp at enough; omega
    | some after => exact ⟨after, rfl, Int.not_lt.mp enough⟩

/-- Nothing is resized for a capacity that is negative. -/
theorem ensure_of_neg (buffer : Option Buffer) {size : Int32} (negative : size.toInt < 0) :
    ensure buffer size = .ok buffer := by
  have length := toInt_lengthOrZero buffer
  rw [ensure, if_neg]
  rw [Int32.lt_iff_toInt_lt, length]
  omega

/-- A capacity beyond the longest array cannot be allocated. -/
theorem ensure_of_gt (buffer : Option Buffer) {size : Int32}
    (beyond : Buffer.maxLength < size.toInt) : ensure buffer size = .error .outOfMemory := by
  have length := toInt_lengthOrZero buffer
  have short : (buffer.elim [] Buffer.bytes).length ≤ Buffer.maxLength := by
    cases buffer with
    | none => exact Nat.zero_le _
    | some given => exact given.short
  have grows : lengthOrZero buffer < size := by
    rw [Int32.lt_iff_toInt_lt, length]
    omega
  rw [ensure, if_pos grows, Buffer.resize, if_neg (by omega), Buffer.allocate_of_lt beyond]
  rfl

section Reading

variable {after : Buffer} {front rest : List UInt8}

private theorem byteStrLen_of_eq (whole : after.bytes = front ++ 0 :: rest) (nonzero : 0 ∉ front) :
    byteStrLen (some after.bytes) = .ok (.ofNat front.length) := by
  rw [byteStrLen, whole, scan_append nonzero, Nat.zero_add]

private theorem toInt_ofNat_front (whole : after.bytes = front ++ 0 :: rest) :
    (Int32.ofNat front.length).toInt = front.length := by
  have short := after.short_int
  rw [whole, List.length_append, List.length_cons] at short
  exact Int32.toInt_ofNat_of_lt (by omega)

/-- A text that is not empty is copied whole, whatever the scratch buffer was. -/
theorem ptrToBuffer_of_eq (whole : after.bytes = front ++ 0 :: rest) (nonzero : 0 ∉ front)
    (nonempty : front ≠ []) (scratch : Option Buffer) :
    ∃ used, ptrToBuffer (some after.bytes) scratch = .ok (.ofNat front.length, some used) ∧
      used.bytes.take front.length = front := by
  have size := toInt_ofNat_front whole
  have positive : 0 < front.length := List.length_pos_iff.mpr nonempty
  have fits : front.length ≤ Buffer.maxLength := by
    have short := after.short
    rw [whole, List.length_append] at short
    omega
  obtain ⟨scratch', ensured, room⟩ :=
    @ensure_of_le scratch (.ofNat front.length) (by omega) (by omega)
  rw [size] at room
  have source : after.bytes.take front.length = front := by rw [whole, List.take_left]
  have available : front.length ≤ after.bytes.length := by
    rw [whole, List.length_append]
    omega
  have copies : marshalCopy after.bytes (some scratch') (.ofNat front.length) =
      .ok (scratch'.overwrite front (by omega)) := by
    simp only [marshalCopy, size, Int.toNat_natCast, source]
    rw [if_neg (by omega), if_neg (by omega), dif_pos (by omega)]
  refine ⟨scratch'.overwrite front (by omega), ?_, List.take_left⟩
  rw [ptrToBuffer, byteStrLen_of_eq whole nonzero]
  change (ensure scratch (.ofNat front.length) >>= fun buffer => do
    let copied ← marshalCopy after.bytes buffer (.ofNat front.length)
    pure (Int32.ofNat front.length, some copied)) = _
  rw [ensured]
  change (marshalCopy after.bytes (some scratch') (.ofNat front.length) >>= fun copied =>
    pure (Int32.ofNat front.length, some copied)) = _
  rw [copies]
  rfl

variable {str : ClrString}

/-- The characters of a text without a lone surrogate come back. -/
theorem getString_of_take (paired : Utf16.paired str.units = true) {used : Buffer}
    (short : str.utf8.length < 2 ^ 31) (same : used.bytes.take str.utf8.length = str.utf8) :
    (encodingUTF8 replaced).getString used (.ofNat str.utf8.length) = .ok str := by
  have size : (Int32.ofNat str.utf8.length).toInt = str.utf8.length :=
    Int32.toInt_ofNat_of_lt short
  simp only [UTF8Encoding.getString, size, Int.toNat_natCast, same]
  rw [ClrString.utf8, UTF8Encoding.characters_utf8]
  dsimp only
  rw [Utf16.encode_decode paired, ClrString.ofUnits_units]

/-- A reader with a scratch buffer gives the text back. -/
theorem utf8PtrToStringWith_of_eq (whole : after.bytes = str.utf8 ++ 0 :: rest)
    (nonzero : 0 ∉ str.utf8) (nonempty : str.utf8 ≠ [])
    (paired : Utf16.paired str.units = true) (scratch : Option Buffer) :
    ∃ used, utf8PtrToStringWith replaced (some after.bytes) scratch = .ok (str, used) := by
  obtain ⟨used, copied, same⟩ := ptrToBuffer_of_eq whole nonzero nonempty scratch
  have size := toInt_ofNat_front whole
  have positive : (0 : Int32) < .ofNat str.utf8.length := by
    rw [Int32.lt_iff_toInt_lt, size]
    exact Int.natCast_pos.mpr (List.length_pos_iff.mpr nonempty)
  have short : str.utf8.length < 2 ^ 31 := by
    have short := after.short_int
    rw [whole, List.length_append] at short
    omega
  refine ⟨some used, ?_⟩
  rw [utf8PtrToStringWith, copied]
  change (if (0 : Int32) < .ofNat str.utf8.length then _ else _) = _
  rw [if_pos positive]
  rw [getString_of_take replaced paired short same]
  rfl

/-- An empty text cannot be copied to no buffer. -/
theorem utf8PtrToString_of_zero (rest : List UInt8) :
    utf8PtrToString replaced (some (0 :: rest)) = .error (.argumentNull "destination") := by
  rfl

end Reading

section Writing

variable {str : ClrString} {buffer : Option Buffer} {count : Int32} {ensured : Buffer}

private theorem toInt_shiftRight_two (count : Int32) : (count >>> 2).toInt = count.toInt / 4 := by
  have shifted : (count >>> 2).toBitVec = count.toBitVec.sshiftRight 2 := rfl
  rw [← Int32.toInt_toBitVec, shifted, BitVec.toInt_sshiftRight, Int32.toInt_toBitVec,
    Int.shiftRight_eq_div_pow]
  rfl

private theorem toInt_shiftLeft_two (count : Int32) :
    (count <<< 2).toInt = (count.toInt * 4).bmod (2 ^ 32) := by
  have shifted : (count <<< 2).toBitVec = count.toBitVec <<< 2 := rfl
  rw [← Int32.toInt_toBitVec, shifted, BitVec.toInt_shiftLeft, ← Int32.toInt_toBitVec,
    Nat.shiftLeft_eq, BitVec.toInt_eq_toNat_bmod]
  simp

private theorem toInt_capacity (nonneg : 0 ≤ count.toInt) :
    (((count >>> 2) + 1) <<< 2).toInt = ((count.toInt / 4 + 1) * 4).bmod (2 ^ 32) := by
  have upper := count.toInt_lt
  have quarter := toInt_shiftRight_two count
  rw [toInt_shiftLeft_two,
    @toInt_succ (count >>> 2) (2 ^ 30) (by omega) (by omega) (by decide), quarter]

/-- The next multiple of four is an `int` as long as it is below `2 ^ 31`. -/
theorem toInt_capacity_of_lt (nonneg : 0 ≤ count.toInt) (below : count.toInt < 0x7FFFFFFC) :
    (((count >>> 2) + 1) <<< 2).toInt = (count.toInt / 4 + 1) * 4 := by
  rw [toInt_capacity nonneg]
  exact Int.bmod_eq_of_le (by omega) (by omega)

/-- The last multiple of four wraps around. -/
theorem toInt_capacity_of_ge (above : 0x7FFFFFFC ≤ count.toInt) :
    (((count >>> 2) + 1) <<< 2).toInt = -2 ^ 31 := by
  have upper := count.toInt_lt
  have quarter : count.toInt / 4 = 0x1FFFFFFF := by omega
  rw [toInt_capacity (by omega), quarter]
  decide

/-- The count of bytes is computed as long as it is an `int`. -/
theorem getMaxByteCount_of_lt (fits : 3 * (str.units.length + 1) < 2 ^ 31) :
    ∃ count, UTF8Encoding.getMaxByteCount str.length = .ok count ∧
      count.toInt = 3 * (str.units.length + 1) := by
  have length := str.toInt_length
  have next : (str.length + 1).toInt = str.units.length + 1 := by
    rw [@toInt_succ str.length (str.units.length + 1) (by omega) (by omega) (by omega), length]
  refine ⟨_, if_pos (by omega), ?_⟩
  rw [toInt_mul_of_lt (by rw [next]; simp; omega) (by rw [next]; simp; omega), next]
  rfl

private theorem getMaxByteCount_of_ge (beyond : 2 ^ 31 ≤ 3 * (str.units.length + 1)) :
    UTF8Encoding.getMaxByteCount str.length = .error (.argumentOutOfRange "charCount") := by
  have length := str.toInt_length
  exact if_neg (by omega)

/-- `StrToUtf8` after the buffer was made large enough. -/
theorem strToUtf8_eq {ensured : Option Buffer}
    (counted : UTF8Encoding.getMaxByteCount str.length = .ok count)
    (grown : ensure buffer (((count >>> 2) + 1) <<< 2) = .ok ensured) :
    strToUtf8 replaced (some str) buffer =
      (encodingUTF8 replaced).getBytes str ensured >>= fun written =>
        if written.2.has written.1 then
          pure (written.1 + 1, some (written.2.set written.1.toInt.toNat 0))
        else .error .indexOutOfRange := by
  rw [strToUtf8, strToUtf8With, counted]
  change (ensure buffer (((count >>> 2) + 1) <<< 2) >>= _) = _
  rw [grown]
  rfl

private theorem getBytes_of_le (room : str.utf8.length ≤ ensured.bytes.length) :
    (encodingUTF8 replaced).getBytes str (some ensured) =
      .ok (.ofNat str.utf8.length, ensured.overwrite str.utf8 room) := dif_pos room

/-- With room for the terminator the string is written. -/
theorem strToUtf8_of_room (counted : UTF8Encoding.getMaxByteCount str.length = .ok count)
    (grown : ensure buffer (((count >>> 2) + 1) <<< 2) = .ok (some ensured))
    (room : str.utf8.length < ensured.bytes.length) :
    ∃ after, strToUtf8 replaced (some str) buffer =
        .ok (.ofNat str.utf8.length + 1, some after) ∧
      after.bytes = str.utf8 ++ 0 :: ensured.bytes.drop (str.utf8.length + 1) := by
  have short := ensured.short_int
  have size : (Int32.ofNat str.utf8.length).toInt = str.utf8.length :=
    Int32.toInt_ofNat_of_lt (by omega)
  have has : (ensured.overwrite str.utf8 (Nat.le_of_lt room)).has (.ofNat str.utf8.length) := by
    rw [Buffer.has, size, Buffer.overwrite, List.length_append, List.length_drop]
    omega
  refine ⟨(ensured.overwrite str.utf8 (Nat.le_of_lt room)).set
    (Int32.ofNat str.utf8.length).toInt.toNat 0, ?_, ?_⟩
  · rw [strToUtf8_eq replaced counted grown, getBytes_of_le replaced (Nat.le_of_lt room)]
    exact if_pos has
  · rw [Buffer.set, Buffer.overwrite, size, Int.toNat_natCast]
    dsimp only
    rw [List.set_append_right _ _ (Nat.le_refl _), Nat.sub_self, List.drop_eq_getElem_cons room,
      List.set_cons_zero]

/-- Without room for the terminator it is not. -/
theorem strToUtf8_of_full (counted : UTF8Encoding.getMaxByteCount str.length = .ok count)
    (grown : ensure buffer (((count >>> 2) + 1) <<< 2) = .ok (some ensured))
    (full : ensured.bytes.length ≤ str.utf8.length) :
    ∃ exception, strToUtf8 replaced (some str) buffer = .error exception := by
  rw [strToUtf8_eq replaced counted grown]
  rcases Nat.lt_or_eq_of_le full with beyond | exact'
  · exact ⟨_, by rw [UTF8Encoding.getBytes]; exact congrArg (· >>= _) (dif_neg (by omega))⟩
  · have size : (Int32.ofNat str.utf8.length).toInt = str.utf8.length :=
      Int32.toInt_ofNat_of_lt (exact' ▸ ensured.short_int)
    have outside : ¬(ensured.overwrite str.utf8 (Nat.le_of_eq exact'.symm)).has
        (.ofNat str.utf8.length) := by
      rw [Buffer.has, size, Buffer.overwrite, List.length_append, List.length_drop]
      omega
    exact ⟨.indexOutOfRange, by
      rw [getBytes_of_le replaced (Nat.le_of_eq exact'.symm)]
      exact if_neg outside⟩

end Writing

/-- The lengths for which the capacity is computed right and .NET allocates it. -/
def Allocatable (str : ClrString) : Prop := str.units.length ≤ 715827861

/-- The one length for which the capacity wraps around: the string has to fit into
the buffer that the caller passed. -/
def FitsAlready (str : ClrString) (buffer : Option Buffer) : Prop :=
  str.units.length = 715827881 ∧
    ∃ given, buffer = some given ∧ str.utf8.length < given.bytes.length

section Deciding

variable {str : ClrString} {buffer : Option Buffer}

private theorem strToUtf8_of_allocatable (allocatable : Allocatable str) (buffer : Option Buffer) :
    ∃ after rest, strToUtf8 replaced (some str) buffer =
        .ok (.ofNat str.utf8.length + 1, some after) ∧ after.bytes = str.utf8 ++ 0 :: rest := by
  rw [Allocatable] at allocatable
  obtain ⟨count, counted, value⟩ := @getMaxByteCount_of_lt str (by omega)
  have capacity := @toInt_capacity_of_lt count (by omega) (by omega)
  have fits : (((count >>> 2) + 1) <<< 2).toInt ≤ Buffer.maxLength := by
    rw [capacity, Buffer.maxLength]
    omega
  obtain ⟨ensured, grown, room⟩ := ensure_of_le buffer (by omega) fits
  have bound : str.utf8.length ≤ 3 * str.units.length := Utf16.length_utf8_decode_le str.units
  obtain ⟨after, written, whole⟩ := strToUtf8_of_room replaced counted grown (by omega)
  exact ⟨after, _, written, whole⟩

private theorem strToUtf8_of_fitsAlready (fits : FitsAlready str buffer) :
    ∃ after rest, strToUtf8 replaced (some str) buffer =
        .ok (.ofNat str.utf8.length + 1, some after) ∧ after.bytes = str.utf8 ++ 0 :: rest := by
  obtain ⟨length, given, rfl, room⟩ := fits
  obtain ⟨count, counted, value⟩ := @getMaxByteCount_of_lt str (by omega)
  have capacity := @toInt_capacity_of_ge count (by omega)
  have grown := @ensure_of_neg (some given) (((count >>> 2) + 1) <<< 2) (by omega)
  obtain ⟨after, written, whole⟩ := strToUtf8_of_room replaced counted grown room
  exact ⟨after, _, written, whole⟩

/-- For all other lengths the call throws. -/
theorem strToUtf8_of_neither (allocatable : ¬Allocatable str) (fits : ¬FitsAlready str buffer) :
    ∃ exception, strToUtf8 replaced (some str) buffer = .error exception := by
  rw [Allocatable] at allocatable
  rcases Nat.lt_or_ge (3 * (str.units.length + 1)) (2 ^ 31) with small | beyond
  · obtain ⟨count, counted, value⟩ := getMaxByteCount_of_lt small
    by_cases wraps : str.units.length = 715827881
    · have capacity := @toInt_capacity_of_ge count (by omega)
      have grown := @ensure_of_neg buffer (((count >>> 2) + 1) <<< 2) (by omega)
      cases buffer with
      | none =>
          rw [strToUtf8_eq replaced counted grown]
          exact ⟨_, rfl⟩
      | some given =>
          refine strToUtf8_of_full replaced counted grown ?_
          by_contra room
          exact fits ⟨wraps, given, rfl, Nat.not_le.mp room⟩
    · have capacity := @toInt_capacity_of_lt count (by omega) (by omega)
      have unallocated : Buffer.maxLength < (((count >>> 2) + 1) <<< 2).toInt := by
        rw [capacity, Buffer.maxLength]
        omega
      refine ⟨.outOfMemory, ?_⟩
      rw [strToUtf8, strToUtf8With, counted]
      change (ensure buffer (((count >>> 2) + 1) <<< 2) >>= _) = _
      rw [ensure_of_gt buffer unallocated]
      rfl
  · refine ⟨.argumentOutOfRange "charCount", ?_⟩
    rw [strToUtf8, strToUtf8With, getMaxByteCount_of_ge beyond]
    rfl

end Deciding

/-- What is written comes back unless it is empty. -/
theorem roundTrips_of_written {str : ClrString} {buffer scratch : Option Buffer}
    {after : Buffer} {rest : List UInt8} (nonzero : 0 ∉ str.units)
    (paired : Utf16.paired str.units = true) (nonempty : str.units ≠ [])
    (written : strToUtf8 replaced (some str) buffer =
      .ok (.ofNat str.utf8.length + 1, some after))
    (whole : after.bytes = str.utf8 ++ 0 :: rest) : RoundTrips replaced str buffer scratch := by
  have clean : 0 ∉ str.utf8 := Utf16.zero_notMem_utf8 (Utf16.zero_notMem_decode nonzero)
  have filled : str.utf8 ≠ [] := Utf16.utf8_decode_ne_nil paired nonempty
  have size := toInt_ofNat_front whole
  have room := after.short
  rw [whole, List.length_append, List.length_cons, Buffer.maxLength] at room
  refine ⟨_, after, written, ?_, ?_, ?_, ?_⟩
  · rw [@toInt_succ _ (str.utf8.length + 1) (by omega) (by omega) (by omega), size]
  · rw [whole, List.append_cons, List.take_left' (by rw [List.length_append]; rfl)]
  · obtain ⟨used, read⟩ :=
      utf8PtrToStringWith_of_eq replaced whole clean filled paired scratch
    exact ⟨used, read⟩
  · obtain ⟨used, read⟩ := utf8PtrToStringWith_of_eq replaced whole clean filled paired none
    rw [utf8PtrToString, read]
    rfl

/-- A string is written and read back exactly when it is not empty and its capacity
can be computed and allocated, or was there before. -/
theorem roundTrips_iff (str : ClrString) (buffer scratch : Option Buffer)
    (nonzero : 0 ∉ str.units) (paired : Utf16.paired str.units = true) :
    RoundTrips replaced str buffer scratch ↔
      str.units ≠ [] ∧ (Allocatable str ∨ FitsAlready str buffer) := by
  constructor
  · rintro ⟨count, after, written, -, whole, -, read⟩
    refine ⟨?_, ?_⟩
    · intro empty
      have nothing : str.utf8 = [] := by rw [ClrString.utf8, empty]; rfl
      rw [nothing] at whole
      obtain ⟨byte, rest, same⟩ : ∃ byte rest, after.bytes = byte :: rest := by
        cases bytes : after.bytes with
        | nil => rw [bytes] at whole; cases whole
        | cons byte rest => exact ⟨byte, rest, rfl⟩
      rw [same] at whole read
      cases whole
      rw [utf8PtrToString_of_zero] at read
      cases read
    · by_contra neither
      rw [not_or] at neither
      obtain ⟨exception, threw⟩ := strToUtf8_of_neither replaced neither.1 neither.2
      rw [threw] at written
      cases written
  · rintro ⟨nonempty, allocatable | fits⟩
    · obtain ⟨after, rest, written, whole⟩ :=
        strToUtf8_of_allocatable replaced allocatable buffer
      exact roundTrips_of_written replaced nonzero paired nonempty written whole
    · obtain ⟨after, rest, written, whole⟩ := strToUtf8_of_fitsAlready replaced fits
      exact roundTrips_of_written replaced nonzero paired nonempty written whole

/-- Two characters of three and four bytes. -/
theorem roundTrips_iff_two :
    RoundTrips (fun _ => []) ⟨[0x20AC, 0xD83D, 0xDE00], by decide⟩ none none :=
  (roundTrips_iff (fun _ => []) ⟨[0x20AC, 0xD83D, 0xDE00], by decide⟩ none none (by decide)
    (by decide)).mpr ⟨by decide, .inl (by decide : 3 ≤ 715827861)⟩

/-- The empty string is written but not read back: the copy has no destination. -/
theorem empty_not_roundTrips :
    0 ∉ ClrString.empty.units ∧ Utf16.paired ClrString.empty.units = true ∧
    strToUtf8 (fun _ => []) (some ClrString.empty) none =
      .ok (1, some ⟨[0, 0, 0, 0], by decide⟩) ∧
    utf8PtrToString (fun _ => []) (some [0, 0, 0, 0]) = .error (.argumentNull "destination") ∧
    ¬RoundTrips (fun _ => []) ClrString.empty none none := by
  refine ⟨by decide, by decide, rfl, rfl, ?_⟩
  rintro ⟨count, after, written, -, -, -, read⟩
  cases written
  cases read

end Utf8

end KdSoftLmdb.DbLibUtil
