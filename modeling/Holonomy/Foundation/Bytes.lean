import Mathlib

/-!
# Big-endian words

A word of some width is written as that many bytes, the most significant one first. Writing and
reading are inverse to each other below the width's bound.
-/

namespace Holonomy.Foundation

/-- The bytes of a word, most significant first; a word that is too large wraps. -/
def bigEndian : ℕ → ℕ → List UInt8
  | 0, _ => []
  | width + 1, value => UInt8.ofNat (value / 256 ^ width) :: bigEndian width (value % 256 ^ width)

/-- The word that some bytes spell. -/
def fromBigEndian : List UInt8 → ℕ
  | [] => 0
  | byte :: bytes => byte.toNat * 256 ^ bytes.length + fromBigEndian bytes

def wordAt (bytes : List UInt8) (width offset : ℕ) : ℕ :=
  fromBigEndian ((bytes.drop offset).take width)

variable {width value offset before : ℕ} {bytes : List UInt8}

/-- A word has its width in bytes. -/
@[simp]
theorem length_bigEndian (width value : ℕ) : (bigEndian width value).length = width := by
  induction width generalizing value with
  | zero => rfl
  | succ width ih => rw [bigEndian, List.length_cons, ih]

/-- Bytes spell a word below the bound of their number. -/
theorem fromBigEndian_lt (bytes : List UInt8) : fromBigEndian bytes < 256 ^ bytes.length := by
  induction bytes with
  | nil => simp [fromBigEndian]
  | cons byte bytes ih =>
    have small : byte.toNat ≤ 255 := Nat.le_of_lt_succ byte.toNat_lt
    have scaled := Nat.mul_le_mul_right (256 ^ bytes.length) small
    rw [fromBigEndian, List.length_cons, Nat.pow_succ]
    omega

/-- A written word is read back, below the bound of its width. -/
theorem fromBigEndian_bigEndian (small : value < 256 ^ width) :
    fromBigEndian (bigEndian width value) = value := by
  induction width generalizing value with
  | zero =>
    rw [Nat.pow_zero] at small
    simp [bigEndian, fromBigEndian]
    omega
  | succ width ih =>
    have positive : 0 < 256 ^ width := Nat.pow_pos (by decide)
    have high : value / 256 ^ width < 256 := by
      rw [Nat.div_lt_iff_lt_mul positive, Nat.mul_comm, ← Nat.pow_succ]
      exact small
    have low := ih (Nat.mod_lt value positive)
    rw [bigEndian, fromBigEndian, low, length_bigEndian, UInt8.toNat_ofNat_of_lt' high]
    exact Nat.div_add_mod' value (256 ^ width)

/-- Bytes are the writing of the word they spell. -/
theorem bigEndian_fromBigEndian (bytes : List UInt8) :
    bigEndian bytes.length (fromBigEndian bytes) = bytes := by
  induction bytes with
  | nil => rfl
  | cons byte bytes ih =>
    have positive : 0 < 256 ^ bytes.length := Nat.pow_pos (by decide)
    have small := fromBigEndian_lt bytes
    have high : (byte.toNat * 256 ^ bytes.length + fromBigEndian bytes) / 256 ^ bytes.length =
        byte.toNat := by
      rw [Nat.add_comm, Nat.add_mul_div_right _ _ positive, Nat.div_eq_of_lt small, Nat.zero_add]
    have low : (byte.toNat * 256 ^ bytes.length + fromBigEndian bytes) % 256 ^ bytes.length =
        fromBigEndian bytes := by
      rw [Nat.add_comm, Nat.add_mul_mod_self_right, Nat.mod_eq_of_lt small]
    rw [List.length_cons, bigEndian, fromBigEndian, high, low, ih, UInt8.ofNat_toNat]

theorem wordAt_append (extra : List UInt8) (inside : offset + width ≤ bytes.length) :
    wordAt (bytes ++ extra) width offset = wordAt bytes width offset := by
  have enough : width ≤ (bytes.drop offset).length := by
    rw [List.length_drop]
    omega
  rw [wordAt, wordAt, List.drop_append_of_le_length (by omega),
    List.take_append_of_le_length enough]

theorem wordAt_lt (bytes : List UInt8) (width offset : ℕ) :
    wordAt bytes width offset < 256 ^ width := by
  have bound := fromBigEndian_lt ((bytes.drop offset).take width)
  have short : ((bytes.drop offset).take width).length ≤ width := List.length_take_le _ _
  exact bound.trans_le (Nat.pow_le_pow_right (by decide) short)

theorem bigEndian_wordAt (inside : offset + width ≤ bytes.length) :
    bigEndian width (wordAt bytes width offset) = (bytes.drop offset).take width := by
  have exactly : ((bytes.drop offset).take width).length = width := by
    rw [List.length_take, List.length_drop]
    omega
  have spelled := bigEndian_fromBigEndian ((bytes.drop offset).take width)
  rw [exactly] at spelled
  exact spelled

theorem wordAt_head (rest : List UInt8) (small : value < 256 ^ width) :
    wordAt (bigEndian width value ++ rest) width 0 = value := by
  have first : ((bigEndian width value ++ rest).drop 0).take width = bigEndian width value := by
    rw [List.drop_zero]
    exact List.take_left' (length_bigEndian width value)
  rw [wordAt, first, fromBigEndian_bigEndian small]

/-- Dropping past a word drops what stands behind it. -/
theorem drop_skip (value : ℕ) (rest : List UInt8) (behind : before ≤ offset) :
    (bigEndian before value ++ rest).drop offset = rest.drop (offset - before) := by
  have whole : (bigEndian before value).drop offset = [] := by
    apply List.drop_eq_nil_of_le
    rw [length_bigEndian]
    exact behind
  rw [List.drop_append, whole, List.nil_append, length_bigEndian]

theorem wordAt_skip (value width : ℕ) (rest : List UInt8) (behind : before ≤ offset) :
    wordAt (bigEndian before value ++ rest) width offset = wordAt rest width (offset - before) := by
  rw [wordAt, wordAt, drop_skip value rest behind]

theorem word_drop (inside : offset + width ≤ bytes.length) :
    bigEndian width (wordAt bytes width offset) ++ bytes.drop (offset + width) =
      bytes.drop offset := by
  rw [bigEndian_wordAt inside, ← List.drop_drop]
  exact List.take_append_drop width (bytes.drop offset)

end Holonomy.Foundation
