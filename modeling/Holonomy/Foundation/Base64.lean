import Holonomy.Foundation.Text

/-!
# Base64

Three bytes are written as four digits of six bits; one or two bytes at the end are written as two
or three digits with padding. Reading accepts whole groups of four only, and reads back what was
written.
-/

namespace Holonomy.Foundation

/-- The digits. -/
def base64Alphabet : Text :=
  js "ABCDEFGHIJKLMNOPQRSTUVWXYZabcdefghijklmnopqrstuvwxyz0123456789+/"

/-- The padding. -/
def base64Pad : UInt16 := 0x3D

/-- The digit of a value below sixty-four. -/
def base64Digit (value : ℕ) : UInt16 := base64Alphabet.getD value 0

/-- The value of a digit. -/
def base64Value (unit : UInt16) : Option ℕ := base64Alphabet.idxOf? unit

/-- Write some bytes. -/
def base64Encode : List UInt8 → Text
  | [] => []
  | [first] =>
    [base64Digit (first.toNat / 4), base64Digit (first.toNat % 4 * 16), base64Pad, base64Pad]
  | [first, second] =>
    [base64Digit (first.toNat / 4), base64Digit (first.toNat % 4 * 16 + second.toNat / 16),
      base64Digit (second.toNat % 16 * 4), base64Pad]
  | first :: second :: third :: rest =>
    base64Digit (first.toNat / 4) :: base64Digit (first.toNat % 4 * 16 + second.toNat / 16) ::
      base64Digit (second.toNat % 16 * 4 + third.toNat / 64) :: base64Digit (third.toNat % 64) ::
        base64Encode rest

/-- The byte that two digits begin. -/
def base64First (first second : ℕ) : UInt8 := UInt8.ofNat (first * 4 + second / 16)

def base64Second (second third : ℕ) : UInt8 := UInt8.ofNat (second % 16 * 16 + third / 4)

/-- The byte that the last two digits spell. -/
def base64Third (third fourth : ℕ) : UInt8 := UInt8.ofNat (third % 4 * 64 + fourth)

/-- Read groups of four digits, the last of which may be padded. -/
def base64Decode : Text → Option (List UInt8)
  | [] => some []
  | first :: second :: third :: fourth :: rest => do
    let one ← base64Value first
    let two ← base64Value second
    if fourth = base64Pad ∧ rest = [] then
      if third = base64Pad then some [base64First one two]
      else
        let three ← base64Value third
        some [base64First one two, base64Second two three]
    else
      let three ← base64Value third
      let four ← base64Value fourth
      let others ← base64Decode rest
      some (base64First one two :: base64Second two three :: base64Third three four :: others)
  | _ => none

/-- A digit has its value. -/
theorem base64Value_digit (value : ℕ) (small : value < 64) :
    base64Value (base64Digit value) = some value := by
  have all : ∀ value : Fin 64, base64Value (base64Digit value) = some value.val := by
    decide +kernel
  exact all ⟨value, small⟩

theorem base64Value_lt {unit : UInt16} {value : ℕ} (found : base64Value unit = some value) :
    value < 64 := by
  obtain ⟨inside, _⟩ := List.idxOf?_eq_some_iff.mp found
  exact inside

/-- No digit is the padding. -/
theorem base64Digit_ne_pad (value : ℕ) (small : value < 64) : base64Digit value ≠ base64Pad := by
  have all : ∀ value : Fin 64, base64Digit value ≠ base64Pad := by decide +kernel
  exact all ⟨value, small⟩

/-- The first byte of a group is read back. -/
theorem base64First_eq (first second : UInt8) :
    base64First (first.toNat / 4) (first.toNat % 4 * 16 + second.toNat / 16) = first := by
  have small := second.toNat_lt
  have whole : first.toNat / 4 * 4 + (first.toNat % 4 * 16 + second.toNat / 16) / 16 =
      first.toNat := by omega
  rw [base64First, whole, UInt8.ofNat_toNat]

/-- The first byte of a padded group is read back. -/
theorem base64First_alone (first : UInt8) :
    base64First (first.toNat / 4) (first.toNat % 4 * 16) = first := by
  have whole : first.toNat / 4 * 4 + first.toNat % 4 * 16 / 16 = first.toNat := by omega
  rw [base64First, whole, UInt8.ofNat_toNat]

/-- The second byte of a group is read back. -/
theorem base64Second_eq (first second third : UInt8) :
    base64Second (first.toNat % 4 * 16 + second.toNat / 16)
      (second.toNat % 16 * 4 + third.toNat / 64) = second := by
  have small := second.toNat_lt
  have smaller := third.toNat_lt
  have whole : (first.toNat % 4 * 16 + second.toNat / 16) % 16 * 16 +
      (second.toNat % 16 * 4 + third.toNat / 64) / 4 = second.toNat := by omega
  rw [base64Second, whole, UInt8.ofNat_toNat]

/-- The second byte of a padded group is read back. -/
theorem base64Second_alone (first second : UInt8) :
    base64Second (first.toNat % 4 * 16 + second.toNat / 16) (second.toNat % 16 * 4) = second := by
  have small := second.toNat_lt
  have whole : (first.toNat % 4 * 16 + second.toNat / 16) % 16 * 16 +
      second.toNat % 16 * 4 / 4 = second.toNat := by omega
  rw [base64Second, whole, UInt8.ofNat_toNat]

/-- The third byte of a group is read back. -/
theorem base64Third_eq (second third : UInt8) :
    base64Third (second.toNat % 16 * 4 + third.toNat / 64) (third.toNat % 64) = third := by
  have small := third.toNat_lt
  have whole : (second.toNat % 16 * 4 + third.toNat / 64) % 4 * 64 + third.toNat % 64 =
      third.toNat := by omega
  rw [base64Third, whole, UInt8.ofNat_toNat]

/-- What was written is read back. -/
theorem base64Decode_encode (bytes : List UInt8) :
    base64Decode (base64Encode bytes) = some bytes := by
  induction bytes using base64Encode.induct with
  | case1 => rfl
  | case2 first =>
    have small := first.toNat_lt
    have one := base64Value_digit (first.toNat / 4) (by omega)
    have two := base64Value_digit (first.toNat % 4 * 16) (by omega)
    simp [base64Encode, base64Decode, one, two, base64First_alone]
  | case3 first second =>
    have small := first.toNat_lt
    have smaller := second.toNat_lt
    have one := base64Value_digit (first.toNat / 4) (by omega)
    have two := base64Value_digit (first.toNat % 4 * 16 + second.toNat / 16) (by omega)
    have three := base64Value_digit (second.toNat % 16 * 4) (by omega)
    have unpadded := base64Digit_ne_pad (second.toNat % 16 * 4) (by omega)
    simp [base64Encode, base64Decode, one, two, three, unpadded, base64First_eq, base64Second_alone]
  | case4 first second third rest ih =>
    have bounds := And.intro first.toNat_lt (And.intro second.toNat_lt third.toNat_lt)
    have one := base64Value_digit (first.toNat / 4) (by omega)
    have two := base64Value_digit (first.toNat % 4 * 16 + second.toNat / 16) (by omega)
    have three := base64Value_digit (second.toNat % 16 * 4 + third.toNat / 64) (by omega)
    have four := base64Value_digit (third.toNat % 64) (by omega)
    have unpadded := base64Digit_ne_pad (third.toNat % 64) (by omega)
    simp [base64Encode, base64Decode, one, two, three, four, unpadded, ih, base64First_eq,
      base64Second_eq, base64Third_eq]

/-! ## Digits without padding -/

/-- The digits of some bytes. -/
def base64Digits : List UInt8 → List ℕ
  | [] => []
  | [first] => [first.toNat / 4, first.toNat % 4 * 16]
  | [first, second] =>
    [first.toNat / 4, first.toNat % 4 * 16 + second.toNat / 16, second.toNat % 16 * 4]
  | first :: second :: third :: rest =>
    first.toNat / 4 :: (first.toNat % 4 * 16 + second.toNat / 16) ::
      (second.toNat % 16 * 4 + third.toNat / 64) :: third.toNat % 64 :: base64Digits rest

/-- The bytes that digits stand for. Bits that make no whole byte are dropped. -/
def base64Bytes : List ℕ → List UInt8
  | one :: two :: three :: four :: rest =>
    base64First one two :: base64Second two three :: base64Third three four :: base64Bytes rest
  | [one, two, three] => [base64First one two, base64Second two three]
  | [one, two] => [base64First one two]
  | _ => []

/-- The number of units that fill up the last group. -/
def base64Padding (bytes : List UInt8) : ℕ := (3 - bytes.length % 3) % 3

section

variable (bytes : List UInt8)

include bytes

theorem base64Padding_le : base64Padding bytes ≤ 2 :=
  Nat.le_of_lt_succ (Nat.mod_lt _ (by decide))

theorem base64Encode_eq : base64Encode bytes =
    (base64Digits bytes).map base64Digit ++ List.replicate (base64Padding bytes) base64Pad := by
  induction bytes using base64Encode.induct with
  | case1 => rfl
  | case2 first => rfl
  | case3 first second => rfl
  | case4 first second third rest ih =>
    have same : base64Padding (first :: second :: third :: rest) = base64Padding rest := by
      simp only [base64Padding, List.length_cons]
      omega
    rw [base64Encode, ih, same]
    rfl

theorem base64Digits_lt : ∀ digit ∈ base64Digits bytes, digit < 64 := by
  induction bytes using base64Encode.induct with
  | case1 => exact fun _ listed => absurd listed List.not_mem_nil
  | case2 first =>
    have small := first.toNat_lt
    simp only [base64Digits, List.forall_mem_cons, List.not_mem_nil, false_imp_iff, implies_true,
      and_true]
    omega
  | case3 first second =>
    have bounds := And.intro first.toNat_lt second.toNat_lt
    simp only [base64Digits, List.forall_mem_cons, List.not_mem_nil, false_imp_iff, implies_true,
      and_true]
    omega
  | case4 first second third rest ih =>
    have bounds := And.intro first.toNat_lt (And.intro second.toNat_lt third.toNat_lt)
    simp only [base64Digits, List.forall_mem_cons]
    exact ⟨by omega, by omega, by omega, by omega, ih⟩

theorem base64Bytes_digits : base64Bytes (base64Digits bytes) = bytes := by
  induction bytes using base64Encode.induct with
  | case1 => rfl
  | case2 first => rw [base64Digits, base64Bytes, base64First_alone]
  | case3 first second =>
    rw [base64Digits, base64Bytes, base64First_eq, base64Second_alone]
  | case4 first second third rest ih =>
    rw [base64Digits, base64Bytes, base64First_eq, base64Second_eq, base64Third_eq, ih]

theorem length_base64Digits :
    (base64Digits bytes).length * 3 / 4 = bytes.length := by
  induction bytes using base64Encode.induct with
  | case1 => rfl
  | case4 first second third rest ih =>
    simp only [base64Digits, List.length_cons] at ih ⊢
    omega
  | _ => simp only [base64Digits, List.length_cons, List.length_nil]

end

end Holonomy.Foundation
