import Mathlib

/-!
# Numerals with the most significant digit in front

A numeral is a list of digits, the most significant one first. Two numerals of one length agree in
a number of leading bits exactly when they agree after a division by a power of two, whether the
bits are compared digit by digit or the last digit is cut by a mask.
-/

namespace Holonomy.Foundation

/-- The number that digits denote, the most significant one first. -/
def numeral (base : ℕ) (digits : List ℕ) : ℕ := Nat.ofDigits base digits.reverse

def IsLeadingMask (width cut mask : ℕ) : Prop :=
  ∀ bit, mask.testBit bit = decide (cut ≤ bit ∧ bit < width)

section Radix

variable {base : ℕ}

/-- No digits denote zero. -/
@[simp] theorem numeral_nil : numeral base [] = 0 := rfl

/-- The first digit counts most. -/
theorem numeral_cons (digit : ℕ) (digits : List ℕ) :
    numeral base (digit :: digits) = digit * base ^ digits.length + numeral base digits := by
  rw [numeral, numeral, List.reverse_cons, Nat.ofDigits_append, Nat.ofDigits_singleton,
    List.length_reverse]
  ring

theorem numeral_lt {digits : List ℕ} (small : ∀ digit ∈ digits, digit < base) :
    numeral base digits < base ^ digits.length := by
  induction digits with
  | nil => simp
  | cons digit digits ih =>
    have first : digit < base := small digit List.mem_cons_self
    have later : numeral base digits < base ^ digits.length :=
      ih fun other listed => small other (List.mem_cons_of_mem _ listed)
    rw [numeral_cons, List.length_cons]
    calc digit * base ^ digits.length + numeral base digits
      _ < digit * base ^ digits.length + base ^ digits.length := by omega
      _ = (digit + 1) * base ^ digits.length := by ring
      _ ≤ base * base ^ digits.length := Nat.mul_le_mul_right _ first
      _ = base ^ (digits.length + 1) := by ring

/-- Reading digit after digit yields the number. -/
theorem foldl_eq_numeral (base : ℕ) (digits : List ℕ) (start : ℕ) :
    digits.foldl (fun value digit => value * base + digit) start =
      start * base ^ digits.length + numeral base digits := by
  induction digits generalizing start with
  | nil => simp
  | cons digit digits ih =>
    rw [List.foldl_cons, ih, numeral_cons, List.length_cons]
    ring

/-- Numbers in front of smaller ones are compared by themselves first. -/
theorem add_mul_eq_iff {weight leftHigh rightHigh leftLow rightLow : ℕ} (left : leftLow < weight)
    (right : rightLow < weight) : leftHigh * weight + leftLow = rightHigh * weight + rightLow ↔
      leftHigh = rightHigh ∧ leftLow = rightLow := by
  constructor
  · intro same
    have positive : 0 < weight := by omega
    have high := congrArg (· / weight) same
    have low := congrArg (· % weight) same
    simp only [Nat.add_comm (_ * weight), Nat.add_mul_div_right _ _ positive,
      Nat.div_eq_of_lt left, Nat.div_eq_of_lt right, Nat.zero_add] at high
    simp only [Nat.add_comm (_ * weight), Nat.add_mul_mod_self_right, Nat.mod_eq_of_lt left,
      Nat.mod_eq_of_lt right] at low
    exact ⟨high, low⟩
  · rintro ⟨rfl, rfl⟩
    rfl

/-- A mask compares the bits above the cut. -/
theorem IsLeadingMask.and_eq_and_iff {width cut mask left right : ℕ}
    (isMask : IsLeadingMask width cut mask) (leftSmall : left < 2 ^ width)
    (rightSmall : right < 2 ^ width) :
    left &&& mask = right &&& mask ↔ left / 2 ^ cut = right / 2 ^ cut := by
  constructor
  · intro same
    apply Nat.eq_of_testBit_eq
    intro bit
    rw [Nat.testBit_div_two_pow, Nat.testBit_div_two_pow]
    by_cases inside : cut + bit < width
    · have kept : mask.testBit (cut + bit) = true := by
        rw [isMask (cut + bit)]
        exact decide_eq_true ⟨by omega, inside⟩
      have bits := congrArg (Nat.testBit · (cut + bit)) same
      simp only [Nat.testBit_and, kept, Bool.and_true] at bits
      rw [Nat.add_comm bit cut]
      exact bits
    · have wide : 2 ^ width ≤ 2 ^ (cut + bit) := Nat.pow_le_pow_right (by decide) (by omega)
      rw [Nat.add_comm bit cut, Nat.testBit_lt_two_pow (by omega),
        Nat.testBit_lt_two_pow (by omega)]
  · intro same
    apply Nat.eq_of_testBit_eq
    intro bit
    rw [Nat.testBit_and, Nat.testBit_and, isMask]
    by_cases above : cut ≤ bit
    · have bits := congrArg (Nat.testBit · (bit - cut)) same
      simp only [Nat.testBit_div_two_pow, Nat.sub_add_cancel above] at bits
      rw [bits]
    · simp [above]

theorem numeral_div_of_le {width : ℕ} (cut digit : ℕ) {digits : List ℕ} (small : ∀ digit ∈ digits,
    digit < 2 ^ width) : numeral (2 ^ width) (digit :: digits) / 2 ^ (width * digits.length + cut) =
      digit / 2 ^ cut := by
  have later := numeral_lt small
  rw [numeral_cons, Nat.pow_add, ← Nat.pow_mul, ← Nat.div_div_eq_div_mul, Nat.add_comm,
    Nat.add_mul_div_right _ _ (by positivity)]
  rw [← Nat.pow_mul] at later
  rw [Nat.div_eq_of_lt later, Nat.zero_add]

/-- Otherwise the first digits are compared, and then the digits behind them. -/
theorem numeral_div_cons_iff {width cut left right : ℕ} {lefts rights : List ℕ}
    (length : lefts.length = rights.length) (cuts : cut ≤ width * lefts.length)
    (leftSmall : ∀ digit ∈ lefts, digit < 2 ^ width)
    (rightSmall : ∀ digit ∈ rights, digit < 2 ^ width) :
    numeral (2 ^ width) (left :: lefts) / 2 ^ cut = numeral (2 ^ width) (right :: rights) /
    2 ^ cut ↔
      left = right ∧ numeral (2 ^ width) lefts / 2 ^ cut = numeral (2 ^ width) rights / 2 ^
        cut := by
  have split : (2 ^ width) ^ lefts.length = 2 ^ (width * lefts.length - cut) * 2 ^ cut := by
    rw [← Nat.pow_mul, ← Nat.pow_add, Nat.sub_add_cancel cuts]
  have bound {digits : List ℕ} (same : digits.length = lefts.length)
      (small : ∀ digit ∈ digits, digit < 2 ^ width) :
      numeral (2 ^ width) digits / 2 ^ cut < 2 ^ (width * lefts.length - cut) := by
    have below := numeral_lt small
    rw [same, split] at below
    exact Nat.div_lt_of_lt_mul (by rw [Nat.mul_comm]; exact below)
  have divided (digit : ℕ) {digits : List ℕ} (same : digits.length = lefts.length) :
      numeral (2 ^ width) (digit :: digits) / 2 ^ cut =
        digit * 2 ^ (width * lefts.length - cut) + numeral (2 ^ width) digits / 2 ^ cut := by
    rw [numeral_cons, same, split, ← Nat.mul_assoc, Nat.add_comm,
      Nat.add_mul_div_right _ _ (by positivity), Nat.add_comm]
  rw [divided left rfl, divided right length.symm]
  exact add_mul_eq_iff (bound rfl leftSmall) (bound length.symm rightSmall)

end Radix

end Holonomy.Foundation
