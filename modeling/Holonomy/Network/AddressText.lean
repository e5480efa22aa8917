import Holonomy.Foundation.Joins
import Holonomy.Foundation.Radix
import Holonomy.Network.Authority

/-!
# The text forms of addresses

An IPv4 address is written as four decimal numbers. An IPv6 address is written as eight groups of
hexadecimal digits; the last two may be written as an IPv4 address, and two colons may stand for a
run of groups that are zero.
-/

namespace Holonomy.Network

open Foundation Kernel

/-- Four numbers below 256 in decimal notation, with points between them. -/
structure IsIpv4 (text : Text) (octets : List ℕ) : Prop where
  four : octets.length = 4
  small : ∀ octet ∈ octets, octet < 256
  spelled : text = join 0x2E (octets.map decimalText)

/-- One to four hexadecimal digits of either case. -/
structure IsGroup (part : Text) (group : ℕ) : Prop where
  filled : part ≠ []
  few : part.length ≤ 4
  digits : ∀ unit ∈ part, (hexValue unit).isSome
  value : group = hexNumber part

/-- Groups in hexadecimal digits; the last two may be written as an IPv4 address. -/
inductive IsGroups : List Text → List ℕ → Prop where
  | none : IsGroups [] []
  | dotted {part : Text} {first second third fourth : ℕ}
      (quad : IsIpv4 part [first, second, third, fourth]) :
      IsGroups [part] [first * 256 + second, third * 256 + fourth]
  | group {part : Text} {group : ℕ} {parts : List Text} {groups : List ℕ}
      (first : IsGroup part group) (later : IsGroups parts groups) :
      IsGroups (part :: parts) (group :: groups)

/-- The text form of eight groups. -/
inductive IsIpv6 : Text → List ℕ → Prop where
  | full {parts : List Text} {groups : List ℕ} (written : IsGroups parts groups)
      (eight : groups.length = 8) : IsIpv6 (join 0x3A parts) groups
  | compressed {left right : List Text} {before behind : List ℕ}
      (first : List.Forall₂ IsGroup left before) (last : IsGroups right behind)
      (missing : before.length + behind.length < 8) :
      IsIpv6 (join 0x3A left ++ [0x3A, 0x3A] ++ join 0x3A right)
        (before ++ List.replicate (8 - (before.length + behind.length)) 0 ++ behind)

/-- A dotted address in front of two colons that end the text. -/
inductive IsMisplaced : Text → List ℕ → Prop where
  | quad {left : List Text} {part : Text} {before : List ℕ} {first second third fourth : ℕ}
      (groups : List.Forall₂ IsGroup left before)
      (quad : IsIpv4 part [first, second, third, fourth]) (missing : before.length < 6) :
      IsMisplaced (join 0x3A (left ++ [part]) ++ [0x3A, 0x3A])
        (before ++ [first * 256 + second, third * 256 + fourth] ++
          List.replicate (8 - (before.length + 2)) 0)

section Joined

variable {separator : UInt16}

variable {part : Text} {parts : List Text} {unit : UInt16}

theorem join_ne_nil (filled : part ≠ []) (parts : List Text) :
    join separator (part :: parts) ≠ [] := by
  cases parts with
  | nil =>
    rw [join_singleton]
    exact filled
  | cons next rest =>
    rw [join_cons_cons]
    simp

theorem of_mem_join (listed : unit ∈ join separator parts) :
    (∃ part ∈ parts, unit ∈ part) ∨ unit = separator := by
  induction parts with
  | nil => simp [join] at listed
  | cons part parts ih =>
    cases parts with
    | nil =>
      rw [join_singleton] at listed
      exact .inl ⟨part, List.mem_cons_self, listed⟩
    | cons next rest =>
      rw [join_cons_cons, List.mem_append, List.mem_cons] at listed
      rcases listed with inside | same | later
      · exact .inl ⟨part, List.mem_cons_self, inside⟩
      · exact .inr same
      · rcases ih later with ⟨other, otherListed, inside⟩ | same
        · exact .inl ⟨other, List.mem_cons_of_mem _ otherListed, inside⟩
        · exact .inr same

theorem mem_join_of_mem (listed : part ∈ parts) (inside : unit ∈ part) :
    unit ∈ join separator parts := by
  induction parts with
  | nil => cases listed
  | cons first parts ih =>
    cases parts with
    | nil =>
      rw [join_singleton, ← List.mem_singleton.mp listed]
      exact inside
    | cons next rest =>
      rw [join_cons_cons, List.mem_append, List.mem_cons]
      rcases List.mem_cons.mp listed with rfl | among
      · exact .inl inside
      · exact .inr (.inr (ih among))

end Joined

section Decimal

variable {byte : ℕ}

theorem decimalNumber_eq (digits : Text) :
    decimalNumber digits = numeral 10 (digits.map fun digit => digit.toNat - 0x30) := by
  have read := foldl_eq_numeral 10 (digits.map fun digit => digit.toNat - 0x30) 0
  rw [List.foldl_map, Nat.zero_mul, Nat.zero_add] at read
  exact read

theorem decimalText_decimalNumber {first : UInt16} {rest : Text} (leading : first.toNat ≠ 0x30)
    (digits : ∀ unit ∈ first :: rest, isDigit unit = true) :
    decimalText (decimalNumber (first :: rest)) = first :: rest := by
  have bounds (unit : UInt16) (listed : unit ∈ first :: rest) :
      0x30 ≤ unit.toNat ∧ unit.toNat ≤ 0x39 := by
    simpa [isDigit] using digits unit listed
  set values := (first :: rest).map fun digit => digit.toNat - 0x30 with valuesEq
  have below : ∀ value ∈ values.reverse, value < 10 := by
    intro value listed
    obtain ⟨unit, unitListed, rfl⟩ := List.mem_map.mp (List.mem_reverse.mp listed)
    have bound := bounds unit unitListed
    omega
  have firstBound := bounds first List.mem_cons_self
  have highest : ∀ nonempty : values.reverse ≠ [], values.reverse.getLast nonempty ≠ 0 := by
    intro nonempty
    simp only [valuesEq, List.getLast_reverse, List.map_cons, List.head_cons]
    omega
  have back : Nat.digits 10 (numeral 10 values) = values.reverse :=
    Nat.digits_ofDigits 10 (by decide) _ below highest
  have positive : numeral 10 values ≠ 0 := by
    intro zero
    rw [zero, Nat.digits_zero] at back
    have length := congrArg List.length back
    simp [valuesEq] at length
  have restored : values.map (fun digit => UInt16.ofNat (0x30 + digit)) = first :: rest := by
    rw [valuesEq, List.map_map]
    refine (List.map_congr_left fun unit listed => ?_).trans (List.map_id _)
    have bound := bounds unit listed
    have same : 0x30 + (unit.toNat - 0x30) = unit.toNat := by omega
    simp only [Function.comp_apply, same, UInt16.ofNat_toNat, id]
  rw [decimalNumber_eq, decimalText, if_neg positive, back, List.reverse_reverse, restored]

theorem readOctet_decimalText : ∀ byte < 256, readOctet (decimalText byte) = some byte := by
  decide +kernel

theorem decimalText_digits : ∀ byte < 256, decimalText byte ≠ [] ∧
    (decimalText byte).all isDigit = true := by
  decide +kernel

theorem readOctet_eq_some_iff {part : Text} :
    readOctet part = some byte ↔ byte < 256 ∧ part = decimalText byte := by
  constructor
  · intro read
    unfold readOctet at read
    by_cases octet : isOctetText part = false
    · rw [if_pos octet] at read
      cases read
    · rw [if_neg octet] at read
      dsimp only at read
      by_cases large : 255 < decimalNumber part
      · rw [if_pos large] at read
        cases read
      · rw [if_neg large] at read
        cases read
        refine ⟨by omega, ?_⟩
        cases part with
        | nil => exact absurd rfl octet
        | cons first rest =>
          have shape : first :: rest = [0x30] ∨ ((0x31 ≤ first.toNat ∧ first.toNat ≤ 0x39) ∧
              rest.length ≤ 2) ∧ ∀ unit ∈ rest, isDigit unit = true := by
            rw [Bool.not_eq_false] at octet
            simpa only [isOctetText, Bool.or_eq_true, Bool.and_eq_true, beq_iff_eq,
              decide_eq_true_eq, List.all_eq_true] using octet
          rcases shape with zero | ⟨⟨bounds, _⟩, digits⟩
          · rw [zero]
            decide +kernel
          · symm
            apply decimalText_decimalNumber (by omega)
            intro unit listed
            rcases List.mem_cons.mp listed with same | later
            · have lower : 0x30 ≤ first.toNat := by omega
              simp [same, isDigit, lower, bounds.2]
            · exact digits unit later
  · rintro ⟨small, rfl⟩
    exact readOctet_decimalText byte small

theorem mapM_readOctet_iff {parts : List Text} {octets : List ℕ} :
    parts.mapM readOctet = some octets ↔
      (∀ octet ∈ octets, octet < 256) ∧ parts = octets.map decimalText := by
  induction parts generalizing octets with
  | nil =>
    cases octets with
    | nil => simp
    | cons octet octets => simp
  | cons part parts ih =>
    rw [List.mapM_cons, Option.bind_eq_bind, Option.bind_eq_some_iff]
    constructor
    · rintro ⟨octet, read, others⟩
      obtain ⟨later, readLater, same⟩ := Option.bind_eq_some_iff.mp others
      cases same
      have first := readOctet_eq_some_iff.mp read
      have rest := ih.mp readLater
      refine ⟨?_, by rw [List.map_cons, first.2, rest.2]⟩
      intro other listed
      rcases List.mem_cons.mp listed with same | among
      · exact same ▸ first.1
      · exact rest.1 other among
    · rintro ⟨small, spelled⟩
      cases octets with
      | nil => cases spelled
      | cons octet octets =>
        obtain ⟨first, later⟩ := List.cons.inj spelled
        have read := readOctet_eq_some_iff.mpr ⟨small octet List.mem_cons_self, first⟩
        have readLater := ih.mpr
          ⟨fun other listed => small other (List.mem_cons_of_mem _ listed), later⟩
        exact ⟨octet, read, Option.bind_eq_some_iff.mpr ⟨octets, readLater, rfl⟩⟩

theorem not_mem_decimalText (small : byte < 256) {unit : UInt16} (other : isDigit unit = false) :
    unit ∉ decimalText byte := by
  intro listed
  have digits := List.all_eq_true.mp (decimalText_digits byte small).2 unit listed
  rw [other] at digits
  cases digits

/-- A text is read as an IPv4 address exactly when it is the text form of one. -/
theorem parseIpv4_eq_some_iff {text : Text} {parsed : ParsedIpv4} :
    parseIpv4 text = some parsed ↔ ∃ octets, IsIpv4 text octets ∧
    parsed = ⟨text, numeral 256 octets⟩ := by
  have value {octets : List ℕ} (four : octets.length = 4) (small : ∀ octet ∈ octets, octet < 256) :
      octets.foldl (fun value byte => value * 256 + byte) 0 % 2 ^ 32 = numeral 256 octets := by
    have below := numeral_lt small
    rw [foldl_eq_numeral, Nat.zero_mul, Nat.zero_add, Nat.mod_eq_of_lt]
    rw [four] at below
    exact below
  constructor
  · intro read
    unfold parseIpv4 at read
    dsimp only at read
    by_cases four : (text.splitOn 0x2E).length ≠ 4
    · rw [if_pos four] at read
      cases read
    · rw [if_neg four] at read
      obtain ⟨octets, parts, same⟩ := Option.bind_eq_some_iff.mp read
      obtain ⟨small, spelled⟩ := mapM_readOctet_iff.mp parts
      have length : octets.length = 4 := by
        rw [spelled, List.length_map] at four
        omega
      have joined : text = join 0x2E (octets.map decimalText) := by
        rw [← spelled]
        exact (List.intercalate_splitOn (0x2E : UInt16)).symm
      refine ⟨octets, ⟨length, small, joined⟩, ?_⟩
      cases same
      rw [value length small, ← joined]
  · rintro ⟨octets, ⟨four, small, spelled⟩, rfl⟩
    have nonempty : octets.map decimalText ≠ [] := by
      intro none
      rw [List.map_eq_nil_iff.mp none] at four
      cases four
    have apart : ∀ part ∈ octets.map decimalText, (0x2E : UInt16) ∉ part := by
      intro part listed
      obtain ⟨octet, among, rfl⟩ := List.mem_map.mp listed
      exact not_mem_decimalText (small octet among) (by decide)
    have parts : text.splitOn 0x2E = octets.map decimalText := by
      rw [spelled]
      exact List.splitOn_intercalate 0x2E apart nonempty
    have read : (octets.map decimalText).mapM readOctet = some octets :=
      mapM_readOctet_iff.mpr ⟨small, rfl⟩
    unfold parseIpv4
    rw [parts]
    dsimp only
    rw [if_neg (by rw [List.length_map, four]; decide), read, Option.bind_eq_bind, Option.bind_some,
      ← spelled, value four small]

end Decimal

section Lower

variable {text : Text} {octets : List ℕ}

theorem lowerUnit_toNat (unit : UInt16) : (lowerUnit unit).toNat =
    if 0x41 ≤ unit.toNat ∧ unit.toNat ≤ 0x5A then unit.toNat + 0x20 else unit.toNat := by
  unfold lowerUnit
  by_cases upper : 0x41 ≤ unit.toNat ∧ unit.toNat ≤ 0x5A
  · rw [if_pos upper, if_pos upper, UInt16.toNat_add]
    change (unit.toNat + 0x20) % 2 ^ 16 = unit.toNat + 0x20
    omega
  · rw [if_neg upper, if_neg upper]

theorem lowerUnit_eq_iff {unit other : UInt16} (front : other.toNat < 0x41) :
    lowerUnit unit = other ↔ unit = other := by
  rw [← UInt16.toNat_inj, ← UInt16.toNat_inj, lowerUnit_toNat]
  split <;> omega

theorem hexValue_lowerUnit (unit : UInt16) : hexValue (lowerUnit unit) = hexValue unit := by
  unfold hexValue
  rw [lowerUnit_toNat]
  by_cases upper : 0x41 ≤ unit.toNat ∧ unit.toNat ≤ 0x5A
  · rw [if_pos upper, if_neg (by omega), if_neg (by omega : ¬ (0x30 ≤ unit.toNat ∧ _)),
      if_neg (by omega : ¬ (0x61 ≤ unit.toNat ∧ _))]
    by_cases digit : unit.toNat ≤ 0x46
    · rw [if_pos (by omega), if_pos (by omega)]
      exact congrArg some (by omega)
    · rw [if_neg (by omega), if_neg (by omega), if_neg (by omega)]
  · rw [if_neg upper]

theorem isLowerHexDigit_lowerUnit (unit : UInt16) :
    isLowerHexDigit (lowerUnit unit) = (hexValue unit).isSome := by
  rw [← hexValue_lowerUnit, Bool.eq_iff_iff]
  unfold isLowerHexDigit isDigit hexValue
  have bound := lowerUnit_toNat unit
  have notUpper : ¬ (0x41 ≤ (lowerUnit unit).toNat ∧ (lowerUnit unit).toNat ≤ 0x46) := by
    rw [bound]
    split <;> omega
  by_cases decimal : 0x30 ≤ (lowerUnit unit).toNat ∧ (lowerUnit unit).toNat ≤ 0x39
  · simp [decimal.1, decimal.2]
  · rw [if_neg decimal]
    by_cases letter : 0x61 ≤ (lowerUnit unit).toNat ∧ (lowerUnit unit).toNat ≤ 0x66
    · simp [letter.1, letter.2]
    · rw [if_neg letter, if_neg notUpper]
      simp only [Bool.or_eq_true, Bool.and_eq_true, decide_eq_true_eq, Option.isSome_none]
      simp [decimal, letter]

theorem hexNumber_lower (digits : Text) : hexNumber (digits.map lowerUnit) = hexNumber digits := by
  unfold hexNumber
  rw [List.foldl_map]
  simp only [hexValue_lowerUnit]

theorem map_lowerUnit_eq_iff {other : Text} (front : ∀ unit ∈ other, unit.toNat < 0x41) :
    text.map lowerUnit = other ↔ text = other := by
  induction text generalizing other with
  | nil => simp
  | cons unit text ih =>
    cases other with
    | nil => simp
    | cons first others =>
      rw [List.map_cons, List.cons.injEq, List.cons.injEq,
        lowerUnit_eq_iff (front first List.mem_cons_self),
        ih fun other listed => front other (List.mem_cons_of_mem _ listed)]

theorem IsIpv4.units (ipv4 : IsIpv4 text octets) :
    ∀ unit ∈ text, isDigit unit = true ∨ unit = 0x2E := by
  intro unit listed
  rw [ipv4.spelled] at listed
  rcases of_mem_join listed with ⟨part, partListed, inside⟩ | point
  · obtain ⟨octet, octetListed, rfl⟩ := List.mem_map.mp partListed
    have digits := (decimalText_digits octet (ipv4.small octet octetListed)).2
    exact .inl (List.all_eq_true.mp digits unit inside)
  · exact .inr point

theorem isIpv4_lower_iff : IsIpv4 (text.map lowerUnit) octets ↔ IsIpv4 text octets := by
  have front {other : Text} (ipv4 : IsIpv4 other octets) : ∀ unit ∈ other, unit.toNat < 0x41 := by
    intro unit listed
    rcases ipv4.units unit listed with digit | rfl
    · simp only [isDigit, Bool.and_eq_true, decide_eq_true_eq] at digit
      omega
    · decide
  constructor
  · intro ipv4
    have same := (map_lowerUnit_eq_iff (front ipv4)).mp rfl
    rw [same]
    exact ipv4
  · intro ipv4
    have same := (map_lowerUnit_eq_iff (front ipv4)).mpr rfl
    rw [same]
    exact ipv4

end Lower

section Groups

def lowerText (text : Text) : Text := text.map lowerUnit

variable {part : Text} {group : ℕ}

theorem mem_lowerText_iff {text : Text} {unit : UInt16} (front : unit.toNat < 0x41) :
    unit ∈ lowerText text ↔ unit ∈ text := by
  unfold lowerText
  rw [List.mem_map]
  constructor
  · rintro ⟨other, listed, same⟩
    rw [← (lowerUnit_eq_iff front).mp same]
    exact listed
  · intro listed
    exact ⟨unit, listed, (lowerUnit_eq_iff front).mpr rfl⟩

theorem isGroupText_lower_iff :
    isGroupText (lowerText part) = true ∧ group = hexNumber (lowerText part) ↔
      IsGroup part group := by
  have digits : (lowerText part).all isLowerHexDigit = true ↔
      ∀ unit ∈ part, (hexValue unit).isSome = true := by
    simp only [lowerText, List.all_map, List.all_eq_true, Function.comp_apply,
      isLowerHexDigit_lowerUnit]
  have filled : 0 < part.length ↔ part ≠ [] := List.length_pos_iff
  unfold isGroupText
  rw [Bool.and_eq_true, Bool.and_eq_true, digits, decide_eq_true_eq, decide_eq_true_eq]
  simp only [lowerText, List.length_map, hexNumber_lower, filled]
  constructor
  · rintro ⟨⟨⟨filled, few⟩, digits⟩, value⟩
    exact ⟨filled, few, digits, value⟩
  · rintro ⟨filled, few, digits, value⟩
    exact ⟨⟨⟨filled, few⟩, digits⟩, value⟩

theorem IsGroup.no_point (isGroup : IsGroup part group) : (0x2E : UInt16) ∉ part := by
  intro listed
  have digit := isGroup.digits _ listed
  revert digit
  decide

theorem IsIpv4.point {octets : List ℕ} (ipv4 : IsIpv4 part octets) : (0x2E : UInt16) ∈ part := by
  obtain ⟨four, _, spelled⟩ := ipv4
  rw [spelled]
  cases octets with
  | nil => cases four
  | cons first octets =>
    cases octets with
    | nil => cases four
    | cons second octets =>
      rw [List.map_cons, List.map_cons, join_cons_cons]
      simp

theorem quad_groups {first second third fourth : ℕ} (small : ∀ octet ∈
    [first, second, third, fourth], octet < 256) :
    [(numeral 256 [first, second, third, fourth] >>> 16) &&& 0xFFFF,
      numeral 256 [first, second, third, fourth] &&& 0xFFFF] =
      [first * 256 + second, third * 256 + fourth] := by
  simp only [List.mem_cons, List.not_mem_nil, or_false, forall_eq_or_imp, forall_eq] at small
  have value : numeral 256 [first, second, third, fourth] =
      (first * 256 + second) * 65536 + (third * 256 + fourth) := by
    simp only [numeral_cons, numeral_nil, List.length_cons, List.length_nil]
    ring
  have mask : (0xFFFF : ℕ) = 2 ^ 16 - 1 := by decide
  rw [value, mask, Nat.and_two_pow_sub_one_eq_mod, Nat.and_two_pow_sub_one_eq_mod,
    Nat.shiftRight_eq_div_pow]
  have high : ((first * 256 + second) * 65536 + (third * 256 + fourth)) / 2 ^ 16 % 2 ^ 16 =
      first * 256 + second := by omega
  have low : ((first * 256 + second) * 65536 + (third * 256 + fourth)) % 2 ^ 16 =
      third * 256 + fourth := by omega
  rw [high, low]

theorem readGroups_eq_some_iff {parts : List Text} {groups : List ℕ} :
    readGroups (parts.map lowerText) = some groups ↔ IsGroups parts groups := by
  induction parts generalizing groups with
  | nil =>
    constructor
    · intro read
      cases read
      exact .none
    · intro written
      cases written
      rfl
  | cons part parts ih =>
    rw [List.map_cons, readGroups]
    have point : (0x2E : UInt16) ∈ lowerText part ↔ 0x2E ∈ part := mem_lowerText_iff (by decide)
    constructor
    · intro read
      by_cases dotted : (0x2E : UInt16) ∈ lowerText part
      · rw [if_pos dotted] at read
        by_cases last : parts.map lowerText ≠ []
        · rw [if_pos last] at read
          cases read
        · rw [if_neg last] at read
          obtain ⟨parsed, isParsed, same⟩ := Option.map_eq_some_iff.mp read
          obtain ⟨octets, ipv4, isValue⟩ := parseIpv4_eq_some_iff.mp isParsed
          have alone : parts = [] := List.map_eq_nil_iff.mp (not_not.mp last)
          obtain ⟨first, second, third, fourth, rfl⟩ := List.length_eq_four.mp ipv4.four
          rw [isValue, quad_groups ipv4.small] at same
          rw [alone, ← same]
          exact .dotted (isIpv4_lower_iff.mp ipv4)
      · rw [if_neg dotted] at read
        by_cases isGroup : isGroupText (lowerText part) = false
        · rw [if_pos isGroup] at read
          cases read
        · rw [if_neg isGroup] at read
          obtain ⟨later, readLater, same⟩ := Option.bind_eq_some_iff.mp read
          cases same
          exact .group (isGroupText_lower_iff.mp ⟨by simpa using isGroup, rfl⟩) (ih.mp readLater)
    · intro written
      cases written with
      | dotted quad =>
        have read := parseIpv4_eq_some_iff.mpr ⟨_, isIpv4_lower_iff.mpr quad, rfl⟩
        have lowered : parseIpv4 (lowerText part) = _ := read
        rw [if_pos (point.mpr quad.point), if_neg (by simp), lowered, Option.map_some,
          quad_groups quad.small]
      | group first later =>
        have isGroup := isGroupText_lower_iff.mpr first
        rw [if_neg (point.not.mpr first.no_point), if_neg (by simp [isGroup.1]), ih.mpr later,
          isGroup.2]
        rfl

end Groups

section Colons

/-- No two colons stand next to each other, and none stands at an end. -/
structure Single (text : Text) : Prop where
  apart : ∀ position : ℕ, text[position]? = some 0x3A → text[position + 1]? ≠ some 0x3A
  begins : text.head? ≠ some 0x3A
  ends : text.getLast? ≠ some 0x3A

variable {text before behind : Text} {position : ℕ}

theorem isPrefixOf_drop_iff (text : Text) (position : ℕ) :
    List.isPrefixOf [0x3A, 0x3A] (text.drop position) = true ↔
      text[position]? = some 0x3A ∧ text[position + 1]? = some 0x3A := by
  have first : text[position]? = (text.drop position)[0]? := by simp
  have second : text[position + 1]? = (text.drop position)[1]? := by simp
  rw [first, second]
  rcases text.drop position with _ | ⟨unit, _ | ⟨next, rest⟩⟩
  · simp [List.isPrefixOf]
  · simp [List.isPrefixOf]
  · simp only [List.isPrefixOf, Bool.and_eq_true, beq_iff_eq, and_true, List.getElem?_cons_zero,
      List.getElem?_cons_succ, Option.some.injEq]
    exact and_congr eq_comm eq_comm

theorem single_of_not_mem (none : (0x3A : UInt16) ∉ text) : Single text where
  apart _ there := absurd (List.mem_of_getElem? there) none
  begins there := none (List.mem_of_head? there)
  ends there := none (List.mem_of_getLast? there)

/-- The parts of an address are not empty and have no colon in them. -/
def ArePart (parts : List Text) : Prop := ∀ part ∈ parts, part ≠ [] ∧ (0x3A : UInt16) ∉ part

theorem single_join {parts : List Text} (are : ArePart parts) : Single (join 0x3A parts) := by
  induction parts with
  | nil => exact single_of_not_mem (by simp [join])
  | cons part parts ih =>
    obtain ⟨filled, plain⟩ := are part List.mem_cons_self
    have later := ih fun other listed => are other (List.mem_cons_of_mem _ listed)
    cases parts with
    | nil =>
      rw [join_singleton]
      exact single_of_not_mem plain
    | cons next rest =>
      have nonempty : join 0x3A (next :: rest) ≠ [] := join_ne_nil (are next (by simp)).1 rest
      rw [join_cons_cons]
      refine ⟨fun position there next => ?_, ?_, ?_⟩
      · by_cases inside : position < part.length
        · rw [List.getElem?_append_left inside] at there
          exact plain (List.mem_of_getElem? there)
        · rw [List.getElem?_append_right (by omega)] at there next
          by_cases between : position = part.length
          · have behind : position + 1 - part.length = 1 := by omega
            rw [behind, List.getElem?_cons_succ, ← List.head?_eq_getElem?] at next
            exact later.begins next
          · obtain ⟨offset, isOffset⟩ : ∃ offset, position - part.length = offset + 1 :=
              ⟨position - part.length - 1, by omega⟩
            have following : position + 1 - part.length = offset + 1 + 1 := by omega
            rw [isOffset, List.getElem?_cons_succ] at there
            rw [following, List.getElem?_cons_succ] at next
            exact later.apart offset there next
      · rw [List.head?_append_of_ne_nil _ filled]
        exact fun there => plain (List.mem_of_head? there)
      · rw [List.getLast?_append_of_ne_nil _ (by simp), List.getLast?_cons_of_ne_nil nonempty]
        exact later.ends

theorem position_eq (left : Single before) (right : Single behind)
    (found : List.isPrefixOf [0x3A, 0x3A]
    ((before ++ [0x3A, 0x3A] ++ behind).drop position) = true) :
    position = before.length := by
  obtain ⟨there, next⟩ := (isPrefixOf_drop_iff _ _).mp found
  rw [List.append_assoc] at there next
  by_contra other
  by_cases inside : position < before.length
  · rw [List.getElem?_append_left inside] at there
    by_cases last : position + 1 < before.length
    · rw [List.getElem?_append_left last] at next
      exact left.apart position there next
    · have atEnd : position = before.length - 1 := by omega
      rw [atEnd, ← List.getLast?_eq_getElem?] at there
      exact left.ends there
  · rw [List.getElem?_append_right (by omega)] at there next
    by_cases second : position = before.length + 1
    · have offset : position + 1 - before.length = 2 := by omega
      rw [offset, List.cons_append, List.cons_append, List.nil_append, List.getElem?_cons_succ,
        List.getElem?_cons_succ, ← List.head?_eq_getElem?] at next
      exact right.begins next
    · obtain ⟨offset, isOffset⟩ : ∃ offset, position - before.length = offset + 1 + 1 :=
        ⟨position - before.length - 2, by omega⟩
      have following : position + 1 - before.length = offset + 1 + 1 + 1 := by omega
      rw [isOffset, List.cons_append, List.cons_append, List.nil_append, List.getElem?_cons_succ,
        List.getElem?_cons_succ] at there
      rw [following, List.cons_append, List.cons_append, List.nil_append, List.getElem?_cons_succ,
        List.getElem?_cons_succ] at next
      exact right.apart offset there next

theorem find?_eq_some_of_unique {α : Type} {chosen : α → Bool} {values : List α} {value : α}
    (listed : value ∈ values) (holds : chosen value = true)
    (unique : ∀ other, chosen other = true → other = value) : values.find? chosen = some value := by
  cases found : values.find? chosen with
  | none => exact absurd holds (List.find?_eq_none.mp found value listed)
  | some other => rw [unique other (List.find?_some found)]

theorem indexOf_between (left : Single before) (right : Single behind) :
    indexOf [0x3A, 0x3A] (before ++ [0x3A, 0x3A] ++ behind) = some before.length ∧
      lastIndexOf [0x3A, 0x3A] (before ++ [0x3A, 0x3A] ++ behind) = some before.length := by
  have listed : before.length ∈
      List.range ((before ++ [0x3A, 0x3A] ++ behind).length + 1) := by
    rw [List.mem_range]
    simp only [List.length_append]
    omega
  have there : List.isPrefixOf [0x3A, 0x3A]
      ((before ++ [0x3A, 0x3A] ++ behind).drop before.length) = true := by
    rw [List.append_assoc, List.drop_left]
    simp [List.isPrefixOf]
  exact ⟨find?_eq_some_of_unique listed there fun _ => position_eq left right,
    find?_eq_some_of_unique (List.mem_reverse.mpr listed) there fun _ => position_eq left right⟩

theorem indexOf_single (single : Single text) : indexOf [0x3A, 0x3A] text = none := by
  unfold indexOf
  rw [List.find?_eq_none]
  intro position _ found
  obtain ⟨there, next⟩ := (isPrefixOf_drop_iff _ _).mp found
  exact single.apart position there next

theorem eq_of_indexOf (found : indexOf [0x3A, 0x3A] text = some position) :
    text = text.take position ++ [0x3A, 0x3A] ++ text.drop (position + 2) := by
  have begins : List.isPrefixOf [0x3A, 0x3A] (text.drop position) = true :=
    List.find?_some (p := fun position => List.isPrefixOf [0x3A, 0x3A] (text.drop position)) found
  obtain ⟨rest, isRest⟩ := List.isPrefixOf_iff_prefix.mp begins
  have behind : text.drop (position + 2) = rest := by
    rw [← List.drop_drop, ← isRest]
    rfl
  rw [behind, List.append_assoc, isRest, List.take_append_drop]

theorem indexOf_lower (text : Text) :
    indexOf [0x3A, 0x3A] (lowerText text) = indexOf [0x3A, 0x3A] text ∧
      lastIndexOf [0x3A, 0x3A] (lowerText text) = lastIndexOf [0x3A, 0x3A] text := by
  have colon (position : ℕ) : (lowerText text)[position]? = some 0x3A ↔
      text[position]? = some 0x3A := by
    rw [lowerText, List.getElem?_map, Option.map_eq_some_iff]
    constructor
    · rintro ⟨unit, there, same⟩
      rw [there, (lowerUnit_eq_iff (by decide)).mp same]
    · intro there
      exact ⟨0x3A, there, by decide⟩
  have same : (fun position => List.isPrefixOf [0x3A, 0x3A] ((lowerText text).drop position)) =
      fun position => List.isPrefixOf [0x3A, 0x3A] (text.drop position) := by
    funext position
    rw [Bool.eq_iff_iff, isPrefixOf_drop_iff, isPrefixOf_drop_iff, colon, colon]
  have length : (lowerText text).length = text.length := List.length_map _
  unfold indexOf lastIndexOf
  rw [same, length]
  exact ⟨rfl, rfl⟩

end Colons

section Reading

variable {part input : Text} {parts left right : List Text} {unit : UInt16}
  {octets groups before behind : List ℕ}

theorem lowerText_join (parts : List Text) :
    lowerText (join 0x3A parts) = join 0x3A (parts.map lowerText) := by
  induction parts with
  | nil => rfl
  | cons part parts ih =>
    cases parts with
    | nil => simp
    | cons next rest =>
      rw [List.map_cons, List.map_cons, join_cons_cons, join_cons_cons, ← List.map_cons, ← ih]
      simp only [lowerText, List.map_append, List.map_cons]
      rfl

theorem readParts_lower (text : Text) :
    readParts (lowerText text) = (readParts text).map lowerText := by
  unfold readParts
  by_cases none : text = []
  · rw [if_pos none, if_pos (by rw [none]; rfl)]
    rfl
  · have filled : lowerText text ≠ [] := by
      rw [lowerText, ne_eq, List.map_eq_nil_iff]
      exact none
    have apart : ∀ part ∈ (text.splitOn 0x3A).map lowerText, (0x3A : UInt16) ∉ part := by
      intro part listed
      obtain ⟨other, among, rfl⟩ := List.mem_map.mp listed
      rw [mem_lowerText_iff (by decide)]
      exact not_mem_of_mem_splitOn among
    have parts : (lowerText text).splitOn 0x3A = (text.splitOn 0x3A).map lowerText := by
      have joined : lowerText text = join 0x3A ((text.splitOn 0x3A).map lowerText) := by
        rw [← lowerText_join]
        exact congrArg lowerText (List.intercalate_splitOn (0x3A : UInt16)).symm
      rw [joined]
      exact List.splitOn_intercalate 0x3A apart (by simp)
    rw [if_neg none, if_neg filled, parts]

theorem join_readParts (text : Text) : join 0x3A (readParts text) = text := by
  unfold readParts
  by_cases none : text = []
  · rw [if_pos none, none]
    rfl
  · rw [if_neg none]
    exact List.intercalate_splitOn (0x3A : UInt16)

theorem readParts_join (are : ArePart parts) : readParts (join 0x3A parts) = parts := by
  cases parts with
  | nil => rfl
  | cons part parts =>
    rw [readParts, if_neg (join_ne_nil (are part List.mem_cons_self).1 parts)]
    exact List.splitOn_intercalate 0x3A (fun other listed => (are other listed).2) (by simp)

/-- The unit may stand in an address. -/
def IsPermitted (unit : UInt16) : Prop := isIpv6Unit (lowerUnit unit) = true

theorem isPermitted_of_hexValue (digit : (hexValue unit).isSome = true) : IsPermitted unit := by
  rw [← isLowerHexDigit_lowerUnit] at digit
  unfold IsPermitted isIpv6Unit
  unfold isLowerHexDigit at digit
  rw [digit]
  rfl

theorem isPermitted_of_isDigit (digit : isDigit unit = true) : IsPermitted unit := by
  apply isPermitted_of_hexValue
  simp only [isDigit, Bool.and_eq_true, decide_eq_true_eq] at digit
  rw [hexValue, if_pos digit]
  rfl

/-- What is needed of a part so that it can be joined and read. -/
structure IsPart (part : Text) : Prop where
  filled : part ≠ []
  plain : (0x3A : UInt16) ∉ part
  permitted : ∀ unit ∈ part, IsPermitted unit

theorem IsGroup.isPart {group : ℕ} (isGroup : IsGroup part group) : IsPart part where
  filled := isGroup.filled
  plain listed := by
    have digit := isGroup.digits _ listed
    revert digit
    decide
  permitted unit listed := isPermitted_of_hexValue (isGroup.digits unit listed)

theorem IsIpv4.isPart (ipv4 : IsIpv4 part octets) : IsPart part where
  filled := List.ne_nil_of_mem ipv4.point
  plain listed := by
    rcases ipv4.units _ listed with digit | point
    · revert digit
      decide
    · revert point
      decide
  permitted unit listed := by
    rcases ipv4.units unit listed with digit | point
    · exact isPermitted_of_isDigit digit
    · rw [point]
      exact rfl

theorem IsGroups.areParts (written : IsGroups parts groups) : ∀ part ∈ parts, IsPart part := by
  induction written with
  | none => simp
  | dotted quad =>
    intro part listed
    rw [List.mem_singleton.mp listed]
    exact quad.isPart
  | group first later ih =>
    intro part listed
    rcases List.mem_cons.mp listed with rfl | among
    · exact first.isPart
    · exact ih part among

theorem arePart_of_isPart (are : ∀ part ∈ parts, IsPart part) : ArePart parts :=
  fun part listed => ⟨(are part listed).filled, (are part listed).plain⟩

theorem isPermitted_join (are : ∀ part ∈ parts, IsPart part) :
    ∀ unit ∈ join 0x3A parts, IsPermitted unit := by
  intro unit listed
  rcases of_mem_join listed with ⟨part, partListed, inside⟩ | colon
  · exact (are part partListed).permitted unit inside
  · rw [colon]
    exact rfl

theorem permitted_of_parseIpv6 (read : parseIpv6 input = some groups) :
    input ≠ [] ∧ ∀ unit ∈ input, IsPermitted unit := by
  unfold parseIpv6 at read
  by_cases guard : input = [] ∨ 0x25 ∈ input ∨ 0x5B ∈ input ∨ 0x5D ∈ input
  · rw [if_pos guard] at read
    cases read
  · rw [if_neg guard] at read
    dsimp only at read
    by_cases units : (input.map lowerUnit).all isIpv6Unit = false
    · rw [if_pos units] at read
      cases read
    · rw [Bool.not_eq_false, List.all_map, List.all_eq_true] at units
      exact ⟨fun none => guard (.inl none), units⟩

/-- How such a text is read. -/
theorem parseIpv6_of_permitted (filled : input ≠ [])
    (permitted : ∀ unit ∈ input, IsPermitted unit) :
    (indexOf [0x3A, 0x3A] input = none →
      parseIpv6 input = fullGroups ((readParts input).map lowerText)) ∧
    ∀ compression, indexOf [0x3A, 0x3A] input = some compression → parseIpv6 input =
      if lastIndexOf [0x3A, 0x3A] input ≠ some compression then none
      else compressedGroups ((readParts (input.take compression)).map lowerText)
        ((readParts (input.drop (compression + 2))).map lowerText) := by
  have units : (input.map lowerUnit).all isIpv6Unit = true := by
    rw [List.all_map, List.all_eq_true]
    exact permitted
  have absent : ¬ (input = [] ∨ 0x25 ∈ input ∨ 0x5B ∈ input ∨ 0x5D ∈ input) := by
    rintro (none | listed | listed | listed)
    · exact filled none
    all_goals
      have unit := permitted _ listed
      revert unit
      unfold IsPermitted
      decide
  have takes (count : ℕ) : (input.map lowerUnit).take count = lowerText (input.take count) :=
    List.map_take.symm
  have drops (count : ℕ) : (input.map lowerUnit).drop count = lowerText (input.drop count) :=
    List.map_drop.symm
  obtain ⟨first, last⟩ := indexOf_lower input
  have lowered : lowerText input = input.map lowerUnit := rfl
  rw [lowered] at first last
  unfold parseIpv6
  rw [if_neg absent]
  dsimp only
  rw [if_neg (by rw [units]; decide), first]
  constructor
  · intro none
    rw [none]
    dsimp only
    rw [← lowered, readParts_lower]
  · intro compression found
    rw [found]
    dsimp only
    rw [last, takes, drops, readParts_lower, readParts_lower]

theorem isGroups_append (written : IsGroups (left ++ right) groups) :
    (∃ before behind, List.Forall₂ IsGroup left before ∧ IsGroups right behind ∧
      groups = before ++ behind) ∨
    (right = [] ∧ ∃ parts part before first second third fourth, left = parts ++ [part] ∧
      List.Forall₂ IsGroup parts before ∧ IsIpv4 part [first, second, third, fourth] ∧
      groups = before ++ [first * 256 + second, third * 256 + fourth]) := by
  induction left generalizing groups with
  | nil => exact .inl ⟨[], groups, .nil, written, rfl⟩
  | cons part left ih =>
    generalize whole : part :: left ++ right = parts at written
    cases written with
    | none => cases whole
    | dotted quad =>
      obtain ⟨rfl, none⟩ := List.cons.inj whole
      obtain ⟨rfl, rfl⟩ := List.append_eq_nil_iff.mp none
      exact .inr ⟨rfl, [], _, [], _, _, _, _, rfl, .nil, quad, rfl⟩
    | group isGroup later =>
      obtain ⟨rfl, rfl⟩ := List.cons.inj whole
      rcases ih later with ⟨before, behind, first, last, rfl⟩ |
        ⟨none, parts, quad, before, first, second, third, fourth, rfl, groups, isQuad, rfl⟩
      · exact .inl ⟨_ :: before, behind, .cons isGroup first, last, rfl⟩
      · exact .inr ⟨none, _ :: parts, quad, _ :: before, first, second, third, fourth, rfl,
          .cons isGroup groups, isQuad, rfl⟩

theorem isGroups_of_forall₂ (first : List.Forall₂ IsGroup left before)
    (last : IsGroups right behind) : IsGroups (left ++ right) (before ++ behind) := by
  induction first with
  | nil => exact last
  | cons isGroup _ ih => exact .group isGroup ih

theorem groupCount_of_forall₂ (are : List.Forall₂ IsGroup parts groups) :
    groupCount (parts.map lowerText) = groups.length := by
  induction are with
  | nil => rfl
  | cons isGroup _ ih =>
    have point := (mem_lowerText_iff (by decide)).not.mpr isGroup.no_point
    unfold groupCount at ih ⊢
    rw [List.map_cons, List.map_cons, List.sum_cons, if_neg point, ih, List.length_cons,
      Nat.add_comm]

theorem groupCount_quad (are : List.Forall₂ IsGroup parts groups) (quad : IsIpv4 part octets) :
    groupCount ((parts ++ [part]).map lowerText) = groups.length + 2 := by
  have point : (0x2E : UInt16) ∈ lowerText part := (mem_lowerText_iff (by decide)).mpr quad.point
  have before := groupCount_of_forall₂ are
  unfold groupCount at before ⊢
  rw [List.map_append, List.map_append, List.sum_append, before]
  simp [point]

theorem compressedGroups_eq (first : List.Forall₂ IsGroup left before)
    (last : IsGroups right behind) :
    compressedGroups (left.map lowerText) (right.map lowerText) =
      if 8 ≤ before.length + behind.length then none
      else some (before ++ List.replicate (8 - (before.length + behind.length)) 0 ++ behind) := by
  have read : readGroups (left.map lowerText ++ right.map lowerText) = some (before ++ behind) := by
    rw [← List.map_append]
    exact readGroups_eq_some_iff.mpr (isGroups_of_forall₂ first last)
  unfold compressedGroups
  rw [read, Option.bind_eq_bind, Option.bind_some, List.length_append, groupCount_of_forall₂ first]
  dsimp only
  rw [List.take_left, List.drop_left]

theorem compressedGroups_quad {first second third fourth : ℕ}
    (groups : List.Forall₂ IsGroup left before)
    (quad : IsIpv4 part [first, second, third, fourth]) :
    compressedGroups ((left ++ [part]).map lowerText) [] =
      if 8 ≤ before.length + 2 then none
      else some (before ++ [first * 256 + second, third * 256 + fourth] ++
        List.replicate (8 - (before.length + 2)) 0) := by
  have read : readGroups ((left ++ [part]).map lowerText ++ []) =
      some (before ++ [first * 256 + second, third * 256 + fourth]) := by
    rw [List.append_nil]
    exact readGroups_eq_some_iff.mpr (isGroups_of_forall₂ groups (.dotted quad))
  have length : (before ++ [first * 256 + second, third * 256 + fourth]).length =
      before.length + 2 := by simp
  unfold compressedGroups
  rw [read, Option.bind_eq_bind, Option.bind_some, length, groupCount_quad groups quad]
  dsimp only
  rw [List.take_of_length_le (by omega), List.drop_of_length_le (by omega), List.append_nil]

theorem parseIpv6_between (first : ∀ part ∈ left, IsPart part)
    (last : ∀ part ∈ right, IsPart part) :
    parseIpv6 (join 0x3A left ++ [0x3A, 0x3A] ++ join 0x3A right) =
      compressedGroups (left.map lowerText) (right.map lowerText) := by
  obtain ⟨index, lastIndex⟩ := indexOf_between (single_join (arePart_of_isPart first))
    (single_join (arePart_of_isPart last))
  have permitted : ∀ unit ∈ join 0x3A left ++ [0x3A, 0x3A] ++ join 0x3A right,
      IsPermitted unit := by
    intro unit listed
    simp only [List.mem_append, List.mem_cons, List.not_mem_nil, or_false, or_self] at listed
    rcases listed with (before | colon) | behind
    · exact isPermitted_join first unit before
    · rw [colon]
      exact rfl
    · exact isPermitted_join last unit behind
  have before : (join 0x3A left ++ [0x3A, 0x3A] ++ join 0x3A right).take (join 0x3A left).length =
      join 0x3A left := by
    rw [List.append_assoc, List.take_left]
  have behind : (join 0x3A left ++ [0x3A, 0x3A] ++ join 0x3A right).drop
      ((join 0x3A left).length + 2) = join 0x3A right := by
    have length : (join 0x3A left).length + 2 = (join 0x3A left ++ [0x3A, 0x3A]).length := by simp
    rw [length, List.drop_left]
  rw [(parseIpv6_of_permitted (by simp) permitted).2 _ index, if_neg (by rw [lastIndex]; simp),
    before, behind, readParts_join (arePart_of_isPart first),
    readParts_join (arePart_of_isPart last)]

theorem isPart_of_forall₂ (are : List.Forall₂ IsGroup parts groups) :
    ∀ part ∈ parts, IsPart part := by
  have written := isGroups_of_forall₂ are .none
  rw [List.append_nil] at written
  exact written.areParts

/-- A text is read exactly when it is the text form of an IPv6 address, or has a dotted address in
front of two colons that end it. -/
theorem parseIpv6_eq_some_iff :
    parseIpv6 input = some groups ↔ IsIpv6 input groups ∨ IsMisplaced input groups := by
  constructor
  · intro read
    obtain ⟨filled, permitted⟩ := permitted_of_parseIpv6 read
    obtain ⟨full, compressed⟩ := parseIpv6_of_permitted filled permitted
    cases found : indexOf [0x3A, 0x3A] input with
    | none =>
      rw [full found, fullGroups] at read
      obtain ⟨written, readWritten, same⟩ := Option.bind_eq_some_iff.mp read
      by_cases eight : written.length ≠ 8
      · rw [if_pos eight] at same
        cases same
      · rw [if_neg eight] at same
        cases same
        rw [← join_readParts input]
        exact .inl (.full (readGroups_eq_some_iff.mp readWritten) (not_not.mp eight))
    | some compression =>
      rw [compressed compression found] at read
      by_cases twice : lastIndexOf [0x3A, 0x3A] input ≠ some compression
      · rw [if_pos twice] at read
        cases read
      · rw [if_neg twice] at read
        have shape := eq_of_indexOf found
        rw [← join_readParts (input.take compression),
          ← join_readParts (input.drop (compression + 2))] at shape
        generalize readParts (input.take compression) = left at read shape
        generalize readParts (input.drop (compression + 2)) = right at read shape
        obtain ⟨all, readAll, _⟩ := Option.bind_eq_some_iff.mp read
        rw [← List.map_append] at readAll
        rcases isGroups_append (readGroups_eq_some_iff.mp readAll) with
          ⟨before, behind, first, last, _⟩ |
          ⟨none, parts, part, before, a, b, c, d, isLeft, are, quad, _⟩
        · rw [compressedGroups_eq first last] at read
          by_cases many : 8 ≤ before.length + behind.length
          · rw [if_pos many] at read
            cases read
          · rw [if_neg many] at read
            cases read
            rw [shape]
            exact .inl (.compressed first last (by omega))
        · rw [none, isLeft, List.map_nil, compressedGroups_quad are quad] at read
          by_cases many : 8 ≤ before.length + 2
          · rw [if_pos many] at read
            cases read
          · rw [if_neg many] at read
            cases read
            have noRight : join 0x3A right = [] := by
              rw [none]
              rfl
            rw [shape, isLeft, noRight, List.append_nil]
            exact .inr (.quad are quad (by omega))
  · rintro (form | misplaced)
    · cases form with
      | @full parts _ written eight =>
        have areParts := written.areParts
        have filled : join 0x3A parts ≠ [] := by
          intro none
          have alone := readParts_join (arePart_of_isPart areParts)
          rw [none] at alone
          rw [← alone] at written
          cases written
          cases eight
        have single := single_join (arePart_of_isPart areParts)
        rw [(parseIpv6_of_permitted filled (isPermitted_join areParts)).1 (indexOf_single single),
          readParts_join (arePart_of_isPart areParts), fullGroups,
          readGroups_eq_some_iff.mpr written, Option.bind_eq_bind, Option.bind_some,
          if_neg (not_not.mpr eight)]
      | compressed first last missing =>
        rw [parseIpv6_between (isPart_of_forall₂ first) last.areParts,
          compressedGroups_eq first last, if_neg (by omega)]
    · cases misplaced with
      | @quad left part _ _ _ _ _ are quad missing =>
        have first := (isGroups_of_forall₂ are (.dotted quad)).areParts
        have between : parseIpv6 (join 0x3A (left ++ [part]) ++ [0x3A, 0x3A] ++ join 0x3A []) =
            compressedGroups ((left ++ [part]).map lowerText) (([] : List Text).map lowerText) :=
          parseIpv6_between first (by simp)
        have noRight : join 0x3A ([] : List Text) = [] := rfl
        rw [noRight, List.append_nil] at between
        rw [between, List.map_nil, compressedGroups_quad are quad, if_neg (by omega)]

end Reading

end Holonomy.Network
