import Mathlib

/-!
# UTF-16 and UTF-8

A text as 16-bit code units. A character beyond the first 65536 is a pair of
surrogates, a high one and a low one; a surrogate without its partner stands for
no character, and decoders put the replacement character in its place.

Text without such a surrogate comes back from its characters
(`Utf16.encode_decode`), and its UTF-8 form is at most three times as long as the
text (`Utf16.length_utf8_decode_le`).
-/

namespace KdSoftLmdb.Utf16

/-- The first half of a pair. -/
def isHighSurrogate (unit : UInt16) : Bool := 0xD800 ≤ unit.toNat && unit.toNat ≤ 0xDBFF

/-- The second half of a pair. -/
def isLowSurrogate (unit : UInt16) : Bool := 0xDC00 ≤ unit.toNat && unit.toNat ≤ 0xDFFF

/-- The character that a pair stands for. -/
def ofPair (high low : UInt16) : Char :=
  .ofNat (0x10000 + (high.toNat - 0xD800) * 0x400 + (low.toNat - 0xDC00))

/-- The character that one unit stands for, the replacement character for a surrogate. -/
def ofUnit (unit : UInt16) : Char :=
  if isHighSurrogate unit || isLowSurrogate unit then '\uFFFD' else .ofNat unit.toNat

/-- The characters of a text. -/
def decode : List UInt16 → List Char
  | [] => []
  | [unit] => [ofUnit unit]
  | unit :: next :: rest =>
      if isHighSurrogate unit && isLowSurrogate next then ofPair unit next :: decode rest
      else ofUnit unit :: decode (next :: rest)

/-- The code units of a character. -/
def encodeChar (char : Char) : List UInt16 :=
  if char.toNat < 0x10000 then [.ofNat char.toNat]
  else [.ofNat (0xD800 + (char.toNat - 0x10000) / 0x400),
    .ofNat (0xDC00 + (char.toNat - 0x10000) % 0x400)]

/-- The code units of a text. -/
def encode (chars : List Char) : List UInt16 := chars.flatMap encodeChar

/-- No surrogate stands alone. -/
def paired : List UInt16 → Bool
  | [] => true
  | [unit] => !isHighSurrogate unit && !isLowSurrogate unit
  | unit :: next :: rest =>
      if isHighSurrogate unit then isLowSurrogate next && paired rest
      else !isLowSurrogate unit && paired (next :: rest)

/-- The bytes of a text in UTF-8. -/
def utf8 (chars : List Char) : List UInt8 := chars.flatMap String.utf8EncodeChar

private theorem toNat_ofPair {high low : UInt16} (first : isHighSurrogate high = true)
    (second : isLowSurrogate low = true) :
    (ofPair high low).toNat =
      0x10000 + (high.toNat - 0xD800) * 0x400 + (low.toNat - 0xDC00) := by
  simp only [isHighSurrogate, isLowSurrogate, Bool.and_eq_true, decide_eq_true_eq] at first second
  have valid : (0x10000 + (high.toNat - 0xD800) * 0x400 + (low.toNat - 0xDC00)).isValidChar := by
    right
    omega
  rw [ofPair, Char.toNat_ofNat, if_pos valid]

private theorem toNat_ofUnit {unit : UInt16} (high : isHighSurrogate unit = false)
    (low : isLowSurrogate unit = false) : (ofUnit unit).toNat = unit.toNat := by
  have valid : unit.toNat.isValidChar := by
    have small := unit.toNat_lt
    simp only [isHighSurrogate, isLowSurrogate, Bool.and_eq_false_iff, decide_eq_false_iff_not]
      at high low
    rcases Nat.lt_or_ge unit.toNat 0xD800 with below | above
    · exact .inl below
    · exact .inr ⟨by omega, by omega⟩
  rw [ofUnit, high, low, if_neg (by decide), Char.toNat_ofNat, if_pos valid]

/-- A pair comes back from its character. -/
theorem encodeChar_ofPair {high low : UInt16} (first : isHighSurrogate high = true)
    (second : isLowSurrogate low = true) : encodeChar (ofPair high low) = [high, low] := by
  rw [encodeChar, toNat_ofPair first second]
  simp only [isHighSurrogate, isLowSurrogate, Bool.and_eq_true, decide_eq_true_eq] at first second
  rw [if_neg (by omega)]
  have upper : 0xD800 + (0x10000 + (high.toNat - 0xD800) * 0x400 + (low.toNat - 0xDC00) -
      0x10000) / 0x400 = high.toNat := by omega
  have lower : 0xDC00 + (0x10000 + (high.toNat - 0xD800) * 0x400 + (low.toNat - 0xDC00) -
      0x10000) % 0x400 = low.toNat := by omega
  rw [upper, lower, UInt16.ofNat_toNat, UInt16.ofNat_toNat]

/-- So does a unit that is no surrogate. -/
theorem encodeChar_ofUnit {unit : UInt16} (high : isHighSurrogate unit = false)
    (low : isLowSurrogate unit = false) : encodeChar (ofUnit unit) = [unit] := by
  have small := unit.toNat_lt
  rw [encodeChar, toNat_ofUnit high low, if_pos (by omega), UInt16.ofNat_toNat]

/-- Text without a lone surrogate comes back from its characters. -/
theorem encode_decode {units : List UInt16} (whole : paired units = true) :
    encode (decode units) = units := by
  induction units using decode.induct with
  | case1 => rfl
  | case2 unit =>
      simp only [paired, Bool.and_eq_true, Bool.not_eq_true'] at whole
      simp [decode, encode, encodeChar_ofUnit whole.1 whole.2]
  | case3 unit next rest both ih =>
      have halves := both
      rw [Bool.and_eq_true] at halves
      rw [paired, if_pos halves.1, Bool.and_eq_true] at whole
      have tail := ih whole.2
      rw [encode] at tail
      rw [decode, if_pos both, encode, List.flatMap_cons, tail,
        encodeChar_ofPair halves.1 halves.2]
      rfl
  | case4 unit next rest apart ih =>
      rw [paired] at whole
      split at whole
      · rename_i first
        rw [Bool.and_eq_true] at whole
        exact absurd (Bool.and_eq_true_iff.mpr ⟨first, whole.1⟩) apart
      · rename_i single
        rw [Bool.and_eq_true, Bool.not_eq_true'] at whole
        have tail := ih whole.2
        rw [encode] at tail
        rw [decode, if_neg apart, encode, List.flatMap_cons, tail,
          encodeChar_ofUnit (Bool.eq_false_of_not_eq_true single) whole.1]
        rfl

private theorem ofUnit_ne_zero {unit : UInt16} (nonzero : unit ≠ 0) : ofUnit unit ≠ '\x00' := by
  intro equal
  by_cases single : (isHighSurrogate unit || isLowSurrogate unit) = true
  · rw [ofUnit, if_pos single] at equal
    exact absurd equal (by decide)
  · rw [Bool.not_eq_true, Bool.or_eq_false_iff] at single
    have value := toNat_ofUnit single.1 single.2
    rw [equal] at value
    exact nonzero (UInt16.toNat_inj.mp value.symm)

/-- A text without the zero unit has no zero character. -/
theorem zero_notMem_decode {units : List UInt16} (nonzero : 0 ∉ units) :
    '\x00' ∉ decode units := by
  induction units using decode.induct with
  | case1 => simp [decode]
  | case2 unit =>
      have head := ofUnit_ne_zero (ne_of_mem_of_not_mem (List.mem_singleton_self unit) nonzero)
      simpa [decode] using head.symm
  | case3 unit next rest both ih =>
      have halves := both
      rw [Bool.and_eq_true] at halves
      have head : ofPair unit next ≠ '\x00' := by
        intro equal
        have value := toNat_ofPair halves.1 halves.2
        rw [equal] at value
        have zero : ('\x00').toNat = 0 := rfl
        omega
      rw [decode, if_pos both, List.mem_cons, not_or]
      exact ⟨head.symm, ih fun inside => nonzero (by simp [inside])⟩
  | case4 unit next rest apart ih =>
      have head := ofUnit_ne_zero (ne_of_mem_of_not_mem List.mem_cons_self nonzero)
      rw [decode, if_neg apart, List.mem_cons, not_or]
      exact ⟨head.symm, ih fun inside => nonzero (List.mem_cons_of_mem _ inside)⟩

private theorem ofNat_ne_zero {value : Nat} (positive : 0 < value) (small : value < 256) :
    0 ≠ UInt8.ofNat value := by
  intro equal
  have same := congrArg UInt8.toNat equal
  rw [UInt8.toNat_ofNat_of_lt' small] at same
  exact absurd same.symm (Nat.ne_of_gt positive)

/-- Only the zero character has a zero byte. -/
theorem zero_notMem_utf8EncodeChar {char : Char} (nonzero : char ≠ '\x00') :
    0 ∉ String.utf8EncodeChar char := by
  have positive : 0 < char.val.toNat := by
    apply Nat.pos_of_ne_zero
    intro zero
    exact nonzero (Char.ext (UInt32.toNat_inj.mp zero))
  intro inside
  rw [String.utf8EncodeChar] at inside
  -- every byte but a single one has its highest bit set
  split at inside
  · exact ofNat_ne_zero positive (by omega) (List.mem_singleton.mp inside)
  · split at inside
    · simp only [List.mem_cons, List.not_mem_nil, or_false] at inside
      rcases inside with equal | equal <;>
        exact ofNat_ne_zero (by omega) (by omega) equal
    · split at inside
      · simp only [List.mem_cons, List.not_mem_nil, or_false] at inside
        rcases inside with equal | equal | equal <;>
          exact ofNat_ne_zero (by omega) (by omega) equal
      · simp only [List.mem_cons, List.not_mem_nil, or_false] at inside
        rcases inside with equal | equal | equal | equal <;>
          exact ofNat_ne_zero (by omega) (by omega) equal

/-- The UTF-8 form of a text without the zero character has no zero byte. -/
theorem zero_notMem_utf8 {chars : List Char} (nonzero : '\x00' ∉ chars) : 0 ∉ utf8 chars := by
  intro inside
  obtain ⟨char, member, byte⟩ := List.mem_flatMap.mp inside
  exact zero_notMem_utf8EncodeChar (ne_of_mem_of_not_mem member nonzero) byte

/-- One unit takes at most three bytes. -/
theorem utf8Size_ofUnit_le (unit : UInt16) : (ofUnit unit).utf8Size ≤ 3 := by
  have bound : (ofUnit unit).toNat ≤ 0xFFFF := by
    have small := unit.toNat_lt
    rw [ofUnit]
    split
    · decide
    · rw [Char.toNat_ofNat]
      split <;> omega
  have value : (ofUnit unit).val ≤ 0xFFFF := UInt32.le_iff_toNat_le.mpr bound
  rw [Char.utf8Size]
  split
  · omega
  · split
    · omega
    · exact Nat.le_of_eq (if_pos value)

private theorem length_utf8_cons (char : Char) (chars : List Char) :
    (utf8 (char :: chars)).length = char.utf8Size + (utf8 chars).length := by
  rw [utf8, List.flatMap_cons, List.length_append, String.length_utf8EncodeChar]
  rfl

/-- The UTF-8 form has at most three bytes for each unit. -/
theorem length_utf8_decode_le (units : List UInt16) :
    (utf8 (decode units)).length ≤ 3 * units.length := by
  induction units using decode.induct with
  | case1 => exact Nat.le_refl 0
  | case2 unit =>
      have size := utf8Size_ofUnit_le unit
      rw [decode, length_utf8_cons]
      exact size
  | case3 unit next rest both ih =>
      have size := (ofPair unit next).utf8Size_le_four
      rw [decode, if_pos both, length_utf8_cons, List.length_cons, List.length_cons]
      omega
  | case4 unit next rest apart ih =>
      have size := utf8Size_ofUnit_le unit
      rw [List.length_cons] at ih
      rw [decode, if_neg apart, length_utf8_cons, List.length_cons, List.length_cons]
      omega

/-- Only the empty text has no bytes. -/
theorem utf8_decode_ne_nil {units : List UInt16} (whole : paired units = true)
    (nonempty : units ≠ []) : utf8 (decode units) ≠ [] := by
  intro empty
  cases chars : decode units with
  | nil =>
      have back := encode_decode whole
      rw [chars] at back
      exact nonempty back.symm
  | cons char rest =>
      have length := length_utf8_cons char rest
      have positive := char.utf8Size_pos
      rw [← chars, empty, List.length_nil] at length
      omega

end KdSoftLmdb.Utf16
