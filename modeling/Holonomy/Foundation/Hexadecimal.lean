import Holonomy.Foundation.JsonText

/-!
# Hexadecimal numerals

Numerals are written with the small letters and filled up with zeros in front, and read with a sign,
a prefix and anything behind the digits. A number that fits the field it is written to is read back.
-/

namespace Holonomy.Foundation

/-- The digits of a number; zero has one. -/
def toHex (value : ℕ) : Text :=
  if value = 0 then [hexDigit 0] else (Nat.digits 16 value).reverse.map hexDigit

/-- Fill up in front. -/
def padStart (width : ℕ) (unit : UInt16) (text : Text) : Text :=
  List.replicate (width - text.length) unit ++ text

/-- The number that digits write. -/
def hexNumber (digits : Text) : ℕ :=
  digits.foldl (fun number digit => number * 16 + (hexValue digit).getD 0) 0

/-- The units that separate words. -/
def isWhitespace (unit : UInt16) : Bool :=
  unit.toNat ∈ [9, 10, 11, 12, 13, 32, 160, 0x1680, 0x2028, 0x2029, 0x202F, 0x205F, 0x3000,
    0xFEFF] ||
    (0x2000 ≤ unit.toNat && unit.toNat ≤ 0x200A)

/-- Read a numeral that may have a sign and a prefix, and stop at what is no digit. -/
def parseHex (text : Text) : Option ℤ :=
  let body := text.dropWhile isWhitespace
  let negative := body.head? = some 45
  let unsigned := if body.head? = some 45 ∨ body.head? = some 43 then body.tail else body
  let bare := if unsigned.head? = some 48 ∧ (unsigned[1]? = some 120 ∨ unsigned[1]? = some 88) then
    unsigned.drop 2 else unsigned
  let digits := bare.takeWhile fun unit => (hexValue unit).isSome
  if digits = [] then none
  else some (if negative then -(hexNumber digits : ℤ) else hexNumber digits)

section Hexadecimal

/-- The digits of a number are digits. -/
theorem isSome_hexValue_toHex (value : ℕ) : ∀ unit ∈ toHex value,
    (hexValue unit).isSome = true := by
  intro unit listed
  unfold toHex at listed
  split at listed
  · rw [List.mem_singleton.mp listed]
    rfl
  · obtain ⟨digit, digitIn, same⟩ := List.mem_map.mp listed
    have small : digit < 16 := Nat.digits_lt_base (by decide) (List.mem_reverse.mp digitIn)
    rw [← same, hexValue_hexDigit _ small]
    rfl

/-- A number that fits has no more digits than the field has places. -/
theorem length_toHex_le {value width : ℕ} (positive : 0 < width) (small : value < 16 ^ width) :
    (toHex value).length ≤ width := by
  unfold toHex
  split
  · exact positive
  · rw [List.length_map, List.length_reverse]
    exact (Nat.digits_length_le_iff (by decide) value).mpr small

/-- Digits are read as the number they were written for. -/
theorem hexNumber_toHex (value : ℕ) : hexNumber (toHex value) = value := by
  have folds : ∀ digits : List ℕ, (∀ digit ∈ digits, digit < 16) →
      hexNumber (digits.reverse.map hexDigit) = Nat.ofDigits 16 digits := by
    intro digits
    induction digits with
    | nil => intro _; rfl
    | cons digit rest ih =>
      intro small
      have later := ih fun other otherIn => small other (List.mem_cons_of_mem _ otherIn)
      rw [List.reverse_cons, List.map_append, hexNumber, List.foldl_append]
      rw [hexNumber] at later
      rw [later, Nat.ofDigits_cons]
      simp only [List.map_cons, List.map_nil, List.foldl_cons, List.foldl_nil,
        hexValue_hexDigit _ (small digit List.mem_cons_self), Option.getD_some]
      ring
  unfold toHex
  split
  · rename_i zero
    rw [zero]
    rfl
  · rw [folds _ fun digit digitIn => Nat.digits_lt_base (by decide) digitIn, Nat.ofDigits_digits]

/-- Zeros in front do not count. -/
theorem hexNumber_replicate (count : ℕ) (digits : Text) :
    hexNumber (List.replicate count 48 ++ digits) = hexNumber digits := by
  induction count with
  | zero => rfl
  | succ count ih => exact ih

/-- A field is as wide as it should be. -/
theorem length_padStart {width : ℕ} {text : Text} (unit : UInt16) (fits : text.length ≤ width) :
    (padStart width unit text).length = width := by
  rw [padStart, List.length_append, List.length_replicate]
  omega

/-- Every unit of a filled numeral is a digit. -/
theorem isSome_hexValue_padStart (width value : ℕ) :
    ∀ unit ∈ padStart width 48 (toHex value), (hexValue unit).isSome = true := by
  intro unit listed
  rcases List.mem_append.mp listed with zero | digit
  · rw [(List.mem_replicate.mp zero).2]
    rfl
  · exact isSome_hexValue_toHex value unit digit

/-- Digits are ASCII, and neither white space nor a sign nor the letter of a prefix. -/
theorem plain_of_isSome {unit : UInt16} (digit : (hexValue unit).isSome = true) :
    unit.toNat < 0x80 ∧ isWhitespace unit = false ∧ unit ≠ 45 ∧ unit ≠ 43 ∧ unit ≠ 120 ∧
      unit ≠ 88 := by
  have range : 48 ≤ unit.toNat ∧ unit.toNat ≤ 57 ∨ 65 ≤ unit.toNat ∧ unit.toNat ≤ 70 ∨
      97 ≤ unit.toNat ∧ unit.toNat ≤ 102 := by
    unfold hexValue at digit
    split at digit
    · rename_i decimal
      exact .inl decimal
    · split at digit
      · rename_i letter
        exact .inr (.inr letter)
      · split at digit
        · rename_i capital
          exact .inr (.inl capital)
        · cases digit
  have other : ∀ value : UInt16, unit = value → unit.toNat = value.toNat :=
    fun _ same => by rw [same]
  refine ⟨by omega, ?_, fun same => ?_, fun same => ?_, fun same => ?_, fun same => ?_⟩
  · rw [Bool.eq_false_iff, isWhitespace]
    intro space
    simp only [Bool.or_eq_true, decide_eq_true_eq, Bool.and_eq_true, List.mem_cons,
      List.not_mem_nil, or_false] at space
    omega
  · have value : unit.toNat = 45 := other 45 same
    omega
  · have value : unit.toNat = 43 := other 43 same
    omega
  · have value : unit.toNat = 120 := other 120 same
    omega
  · have value : unit.toNat = 88 := other 88 same
    omega

theorem parseHex_of_digits {text : Text} (some' : text ≠ [])
    (digits : ∀ unit ∈ text, (hexValue unit).isSome = true) :
    parseHex text = some (hexNumber text : ℤ) := by
  cases text with
  | nil => exact absurd rfl some'
  | cons unit rest =>
    have first := plain_of_isSome (digits unit List.mem_cons_self)
    have body : (unit :: rest).dropWhile isWhitespace = unit :: rest :=
      List.dropWhile_cons_of_neg (by rw [first.2.1]; exact Bool.false_ne_true)
    have unsigned : ¬ ((unit :: rest).head? = some 45 ∨ (unit :: rest).head? = some 43) := by
      rintro (minus | plus)
      · exact first.2.2.1 (Option.some.inj minus)
      · exact first.2.2.2.1 (Option.some.inj plus)
    have positive : ¬ (unit :: rest).head? = some 45 := fun minus => unsigned (.inl minus)
    have bare : ¬ ((unit :: rest).head? = some 48 ∧
        ((unit :: rest)[1]? = some 120 ∨ (unit :: rest)[1]? = some 88)) := by
      rintro ⟨_, letter⟩
      have second : ∀ value, (unit :: rest)[1]? = some value → (hexValue value).isSome = true :=
        fun value found => digits value (List.mem_of_getElem? found)
      rcases letter with small | capital
      · exact absurd (second 120 small) (by decide)
      · exact absurd (second 88 capital) (by decide)
    have all : (unit :: rest).takeWhile (fun unit => (hexValue unit).isSome) = unit :: rest :=
      List.takeWhile_eq_self_iff.mpr digits
    unfold parseHex
    simp only [body, if_neg unsigned, if_neg bare, all, if_neg positive]
    rw [if_neg (List.cons_ne_nil _ _)]

/-- A number that fits its field is read back. -/
theorem parseHex_padStart {value width : ℕ} (positive : 0 < width) (small : value < 16 ^ width) :
    parseHex (padStart width 48 (toHex value)) = some (value : ℤ) := by
  have wide : (padStart width 48 (toHex value)).length = width :=
    length_padStart 48 (length_toHex_le positive small)
  have some' : padStart width 48 (toHex value) ≠ [] := by
    intro empty
    rw [empty, List.length_nil] at wide
    omega
  rw [parseHex_of_digits some' (isSome_hexValue_padStart width value), padStart,
    hexNumber_replicate, hexNumber_toHex]

end Hexadecimal

end Holonomy.Foundation
