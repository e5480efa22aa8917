import Holonomy.Foundation.Base64
import Holonomy.Network.Rules

/-!
# Bytes as text

Buffers are written in base64, with either alphabet, and in hexadecimal. Network rules are written
and mock bodies are read by codecs of their own, which do the same.
-/

namespace Holonomy

open Foundation

namespace NodeCompat

/-- Three bytes as digits; a byte that is missing is `undefined`. -/
def encodeGroup (first : UInt8) (second third : Option UInt8) : Text :=
  let packed := first.toNat <<< 16 ||| second.elim 0 UInt8.toNat <<< 8 ||| third.elim 0 UInt8.toNat
  [base64Digit (packed >>> 18 &&& 0x3F), base64Digit (packed >>> 12 &&& 0x3F),
    if second = none then 0x3D else base64Digit (packed >>> 6 &&& 0x3F),
    if third = none then 0x3D else base64Digit (packed &&& 0x3F)]

def encodeGroups : List UInt8 → Text
  | [] => []
  | [first] => encodeGroup first none none
  | [first, second] => encodeGroup first (some second) none
  | first :: second :: third :: rest =>
    encodeGroup first (some second) (some third) ++ encodeGroups rest

/-- The unit that stands for a unit in URLs. -/
def urlUnit (unit : UInt16) : UInt16 :=
  if unit = 0x2B then 0x2D else if unit = 0x2F then 0x5F else unit

def encodeBase64 (bytes : List UInt8) (urlSafe : Bool) : Text :=
  let output := encodeGroups bytes
  if urlSafe then (output.map urlUnit).rdropWhile (· = 0x3D) else output

/-- The place of a unit in the alphabet. -/
def sextetOf (unit : UInt16) : Option ℕ :=
  base64Value (if unit = 0x2D then 0x2B else if unit = 0x5F then 0x2F else unit)

/-- The bytes of a group, unless it has no second sextet. -/
def flush (sextets : List ℕ) : Option (List UInt8) := do
  let first ← sextets[0]?
  let second ← sextets[1]?
  let packed := first <<< 18 ||| second <<< 12 ||| sextets[2]?.getD 0 <<< 6 ||| sextets[3]?.getD 0
  return UInt8.ofNat (packed >>> 16 &&& 0xFF) ::
    ((if 3 ≤ sextets.length then [UInt8.ofNat (packed >>> 8 &&& 0xFF)] else []) ++
      if sextets.length = 4 then [UInt8.ofNat (packed &&& 0xFF)] else [])

/-- The rest of the loop, which goes over code points: one that takes two units is in the alphabet
as little as each of the two. -/
def decodeUnits (sextets : List ℕ) (bytes : List UInt8) : Text → Option (List UInt8)
  | [] => if 2 ≤ sextets.length then (flush sextets).map (bytes ++ ·) else some bytes
  | unit :: rest =>
    if unit = 0x3D then
      if 2 ≤ sextets.length then (flush sextets).map (bytes ++ ·) else some bytes
    else match sextetOf unit with
      | none => decodeUnits sextets bytes rest
      | some sextet =>
        if sextets.length + 1 = 4 then
          (flush (sextets ++ [sextet])).bind fun group => decodeUnits [] (bytes ++ group) rest
        else decodeUnits (sextets ++ [sextet]) bytes rest

/-- The result is missing where a group is read outside. -/
def decodeBase64 (value : Text) : Option (List UInt8) := decodeUnits [] [] value

/-- The length without the padding at its end, if there is one. -/
def unpadded (value : Text) (length : ℕ) : ℕ :=
  if 0 < length ∧ value[length - 1]? = some 0x3D then length - 1 else length

def base64ByteLength (value : Text) : ℕ :=
  unpadded value (unpadded value value.length) * 3 / 4

def encodeHex (bytes : List UInt8) : Text :=
  bytes.flatMap fun byte => padStart 2 0x30 (toHex byte.toNat)

def decodeHex : Text → List UInt8
  | high :: low :: rest =>
    if (hexValue high).isSome ∧ (hexValue low).isSome then
      UInt8.ofNat (hexNumber [high, low]) :: decodeHex rest
    else []
  | _ => []

end NodeCompat

namespace Network

/-- The machine word with one more digit at its end. -/
def appendDigit (buffer : BitVec 32) (digit : ℕ) : BitVec 32 :=
  buffer <<< 6 ||| BitVec.ofNat 32 digit

/-- The byte in front of the last bits. -/
def byteAt (buffer : BitVec 32) (bits : ℕ) : UInt8 :=
  UInt8.ofBitVec ((buffer.sshiftRight bits).setWidth 8)

/-- Read the units behind some of which `bits` bits are left over. -/
def decodeDigits (buffer : BitVec 32) (bits : ℕ) : Text → Option (List UInt8)
  | [] => some []
  | unit :: rest =>
    match base64Value unit with
    | none => none
    | some digit =>
      let buffer := appendDigit buffer digit
      if 8 ≤ bits + 6 then
        (decodeDigits buffer (bits + 6 - 8) rest).map (byteAt buffer (bits + 6 - 8) :: ·)
      else decodeDigits buffer (bits + 6) rest

/-- The mock router's reader of base64, which throws at what is no digit. -/
def decodeBase64 (value : Text) : Option (List UInt8) :=
  decodeDigits 0 0 (value.rdropWhile (· = 0x3D))

end Network

namespace NodeCompat

theorem or_eq_add {high low count : ℕ} (small : low < 2 ^ count) :
    high <<< count ||| low = high * 2 ^ count + low := by
  rw [← Nat.shiftLeft_add_eq_or_of_lt small, Nat.shiftLeft_eq]

theorem packed_digits {first second third : ℕ} (one : first < 2 ^ 8) (two : second < 2 ^ 8)
    (three : third < 2 ^ 8) :
    (first <<< 16 ||| second <<< 8 ||| third) >>> 18 &&& 0x3F = first / 4 ∧
      (first <<< 16 ||| second <<< 8 ||| third) >>> 12 &&& 0x3F = first % 4 * 16 + second / 16 ∧
      (first <<< 16 ||| second <<< 8 ||| third) >>> 6 &&& 0x3F = second % 16 * 4 + third / 64 ∧
      (first <<< 16 ||| second <<< 8 ||| third) &&& 0x3F = third % 64 := by
  have mask : (0x3F : ℕ) = 2 ^ 6 - 1 := rfl
  rw [Nat.or_assoc, or_eq_add three, or_eq_add (by omega)]
  simp only [mask, Nat.and_two_pow_sub_one_eq_mod, Nat.shiftRight_eq_div_pow]
  omega

theorem encodeGroup_eq (first : UInt8) (second third : Option UInt8) :
    encodeGroup first second third = [base64Digit (first.toNat / 4),
      base64Digit (first.toNat % 4 * 16 + second.elim 0 UInt8.toNat / 16),
      if second = none then base64Pad else
        base64Digit (second.elim 0 UInt8.toNat % 16 * 4 + third.elim 0 UInt8.toNat / 64),
      if third = none then base64Pad else base64Digit (third.elim 0 UInt8.toNat % 64)] := by
  have small : ∀ byte : Option UInt8, byte.elim 0 UInt8.toNat < 2 ^ 8 := by
    intro byte
    cases byte with
    | none => exact Nat.two_pow_pos 8
    | some byte => exact byte.toNat_lt
  obtain ⟨highest, high, low, lowest⟩ := packed_digits first.toNat_lt (small second) (small third)
  simp only [encodeGroup, highest, high, low, lowest]
  rfl

theorem encodeGroups_eq (bytes : List UInt8) : encodeGroups bytes = base64Encode bytes := by
  induction bytes using base64Encode.induct with
  | case1 => rfl
  | case2 first => exact encodeGroup_eq first none none
  | case3 first second => exact encodeGroup_eq first (some second) none
  | case4 first second third rest ih =>
    rw [encodeGroups, ih, encodeGroup_eq]
    rfl

/-- The unit that is written for a digit. -/
def unitOf (urlSafe : Bool) (digit : ℕ) : UInt16 :=
  if urlSafe then urlUnit (base64Digit digit) else base64Digit digit

theorem unitOf_spec (urlSafe : Bool) {digit : ℕ} (small : digit < 64) :
    sextetOf (unitOf urlSafe digit) = some digit ∧ unitOf urlSafe digit ≠ 0x3D := by
  have all : ∀ (urlSafe : Bool) (digit : Fin 64),
      sextetOf (unitOf urlSafe digit) = some digit.val ∧ unitOf urlSafe digit ≠ 0x3D := by
    decide +kernel
  exact all urlSafe ⟨digit, small⟩

variable {units : Text}

/-- Padding at the end is taken off. -/
theorem rdropWhile_pad (free : ∀ unit ∈ units, unit ≠ 0x3D) (count : ℕ) :
    (units ++ List.replicate count 0x3D).rdropWhile (· = 0x3D) = units := by
  have ends : units.reverse.dropWhile (· = 0x3D) = units.reverse := by
    refine List.dropWhile_eq_self_iff.mpr fun some' => ?_
    simpa using free _ (List.mem_reverse.mp (List.getElem_mem some'))
  rw [List.rdropWhile, List.reverse_append, List.reverse_replicate, List.dropWhile_append_of_pos,
    ends, List.reverse_reverse]
  intro unit listed
  rw [(List.mem_replicate.mp listed).2]
  rfl

/-- A text is the units of its digits, with padding in the alphabet that has it. -/
theorem encodeBase64_eq (bytes : List UInt8) (urlSafe : Bool) :
    ∃ count ≤ 2, encodeBase64 bytes urlSafe =
      (base64Digits bytes).map (unitOf urlSafe) ++ List.replicate count 0x3D := by
  cases urlSafe with
  | false =>
    exact ⟨_, base64Padding_le bytes, (encodeGroups_eq bytes).trans (base64Encode_eq bytes)⟩
  | true =>
    refine ⟨0, Nat.zero_le 2, ?_⟩
    have free : ∀ unit ∈ (base64Digits bytes).map (unitOf true), unit ≠ 0x3D := by
      intro unit listed
      obtain ⟨digit, digitIn, same⟩ := List.mem_map.mp listed
      rw [← same]
      exact (unitOf_spec true (base64Digits_lt bytes digit digitIn)).2
    have mapped : (encodeGroups bytes).map urlUnit =
        (base64Digits bytes).map (unitOf true) ++ List.replicate (base64Padding bytes) 0x3D := by
      rw [encodeGroups_eq, base64Encode_eq, List.map_append, List.map_map, List.map_replicate]
      rfl
    rw [encodeBase64, mapped, List.replicate_zero, List.append_nil]
    exact rdropWhile_pad free _

theorem packed_bytes {one two three four : ℕ} (first : one < 2 ^ 6) (second : two < 2 ^ 6)
    (third : three < 2 ^ 6) (fourth : four < 2 ^ 6) :
    [UInt8.ofNat ((one <<< 18 ||| two <<< 12 ||| three <<< 6 ||| four) >>> 16 &&& 0xFF),
      UInt8.ofNat ((one <<< 18 ||| two <<< 12 ||| three <<< 6 ||| four) >>> 8 &&& 0xFF),
      UInt8.ofNat ((one <<< 18 ||| two <<< 12 ||| three <<< 6 ||| four) &&& 0xFF)] =
    [base64First one two, base64Second two three, base64Third three four] := by
  have mask : (0xFF : ℕ) = 2 ^ 8 - 1 := rfl
  have low : two <<< 12 ||| (three * 2 ^ 6 + four) = two * 2 ^ 12 + (three * 2 ^ 6 + four) :=
    or_eq_add (by omega)
  rw [Nat.or_assoc, Nat.or_assoc, or_eq_add fourth, low, or_eq_add (by omega)]
  generalize packed : one * 2 ^ 18 + (two * 2 ^ 12 + (three * 2 ^ 6 + four)) = number
  have highest : number / 2 ^ 16 % 2 ^ 8 = one * 4 + two / 16 := by omega
  have middle : number / 2 ^ 8 % 2 ^ 8 = two % 16 * 16 + three / 4 := by omega
  have lowest : number % 2 ^ 8 = three % 4 * 64 + four := by omega
  simp only [mask, Nat.and_two_pow_sub_one_eq_mod, Nat.shiftRight_eq_div_pow, highest,
    middle, lowest]
  rfl

/-- A group gives its bytes. -/
theorem flush_eq {sextets : List ℕ} (small : ∀ sextet ∈ sextets, sextet < 2 ^ 6)
    (enough : 2 ≤ sextets.length) (few : sextets.length ≤ 4) :
    flush sextets = some (base64Bytes sextets) := by
  have zero := Nat.two_pow_pos 6
  rcases sextets with _ | ⟨one, _ | ⟨two, _ | ⟨three, _ | ⟨four, _ | ⟨five, rest⟩⟩⟩⟩⟩
  · cases enough
  · cases enough with
    | step none => cases none
  · simp only [List.forall_mem_cons] at small
    have bytes := packed_bytes small.1 small.2.1 zero zero
    exact congrArg (fun group => some (group.take 1)) bytes
  · simp only [List.forall_mem_cons] at small
    have bytes := packed_bytes small.1 small.2.1 small.2.2.1 zero
    exact congrArg (fun group => some (group.take 2)) bytes
  · simp only [List.forall_mem_cons] at small
    have bytes := packed_bytes small.1 small.2.1 small.2.2.1 small.2.2.2.1
    exact congrArg some bytes
  · simp only [List.length_cons] at few
    omega

/-- What the loop over the rest finds, with less than a group at hand. -/
theorem decodeUnits_eq (value : Text) {sextets : List ℕ} (bytes : List UInt8)
    (small : ∀ sextet ∈ sextets, sextet < 2 ^ 6) (short : sextets.length < 4) :
    decodeUnits sextets bytes value = some (bytes ++
      base64Bytes (sextets ++ (value.takeWhile (· ≠ 0x3D)).filterMap sextetOf)) := by
  have ends : ∀ (sextets : List ℕ) (bytes : List UInt8), (∀ sextet ∈ sextets, sextet < 2 ^ 6) →
      sextets.length < 4 → (if 2 ≤ sextets.length then (flush sextets).map (bytes ++ ·)
        else some bytes) = some (bytes ++ base64Bytes (sextets ++ [])) := by
    intro sextets bytes small short
    rw [List.append_nil]
    split
    · rename_i two
      rw [flush_eq small two short.le]
      rfl
    · rename_i few
      rcases sextets with _ | ⟨one, _ | ⟨two, rest⟩⟩
      · exact congrArg some (List.append_nil bytes).symm
      · exact congrArg some (List.append_nil bytes).symm
      · simp only [List.length_cons] at few
        omega
  induction value generalizing sextets bytes with
  | nil => exact ends sextets bytes small short
  | cons unit rest ih =>
    unfold decodeUnits
    by_cases pad : unit = 0x3D
    · rw [if_pos pad, List.takeWhile_cons_of_neg (by simpa using pad)]
      exact ends sextets bytes small short
    rw [if_neg pad, List.takeWhile_cons_of_pos (by simpa using pad)]
    cases found : sextetOf unit with
    | none =>
      rw [List.filterMap_cons_none found]
      exact ih bytes small short
    | some sextet =>
      have grown : ∀ other ∈ sextets ++ [sextet], other < 2 ^ 6 :=
        forall_mem_concat small (base64Value_lt found)
      rw [List.filterMap_cons_some found, ← List.singleton_append, ← List.append_assoc]
      dsimp only
      by_cases full : sextets.length + 1 = 4
      · have length : (sextets ++ [sextet]).length = 4 := by
          rw [List.length_append, List.length_singleton, full]
        rw [if_pos full, flush_eq grown (by omega) length.le, Option.bind_some,
          ih _ (fun _ listed => absurd listed List.not_mem_nil) (by decide), List.append_assoc]
        obtain ⟨one, two, three, rfl⟩ := List.length_eq_three.mp (Nat.succ_injective full)
        rfl
      · rw [if_neg full]
        exact ih bytes grown (by rw [List.length_append, List.length_singleton]; omega)

theorem decodeBase64_eq (value : Text) : decodeBase64 value =
    some (base64Bytes ((value.takeWhile (· ≠ 0x3D)).filterMap sextetOf)) :=
  decodeUnits_eq value [] (fun _ listed => absurd listed List.not_mem_nil) (by decide)

theorem filterMap_unitOf (urlSafe : Bool) {digits : List ℕ} (small : ∀ digit ∈ digits, digit < 64) :
    (digits.map (unitOf urlSafe)).filterMap sextetOf = digits := by
  rw [List.filterMap_map]
  refine (List.filterMap_congr fun digit listed => ?_).trans List.filterMap_some
  exact (unitOf_spec urlSafe (small digit listed)).1

theorem unpadded_append (free : ∀ unit ∈ units, unit ≠ 0x3D) {count index : ℕ}
    (inside : index ≤ count) : unpadded (units ++ List.replicate count 0x3D)
    (units.length + index) =
      units.length + (index - 1) := by
  unfold unpadded
  cases index with
  | zero =>
    refine if_neg fun ends => ?_
    rw [List.getElem?_append_left (by omega)] at ends
    exact free _ (List.mem_of_getElem? ends.2) rfl
  | succ index =>
    have isPad : (units ++ List.replicate count 0x3D)[units.length + (index + 1) - 1]? =
        some (0x3D : UInt16) := by
      rw [List.getElem?_append_right (by omega), List.getElem?_replicate, if_pos (by omega)]
    exact if_pos ⟨by omega, isPad⟩

theorem base64ByteLength_append (free : ∀ unit ∈ units, unit ≠ 0x3D) {count : ℕ}
    (few : count ≤ 2) : base64ByteLength (units ++ List.replicate count 0x3D) =
      units.length * 3 / 4 := by
  have none : count - 1 - 1 = 0 := by omega
  rw [base64ByteLength, List.length_append, List.length_replicate,
    unpadded_append free (le_refl count), unpadded_append free (Nat.sub_le count 1), none,
    Nat.add_zero]

theorem base64_round_trip (bytes : List UInt8) (urlSafe : Bool) :
    decodeBase64 (encodeBase64 bytes urlSafe) = some bytes ∧
      base64ByteLength (encodeBase64 bytes urlSafe) = bytes.length := by
  obtain ⟨count, few, written⟩ := encodeBase64_eq bytes urlSafe
  have small := base64Digits_lt bytes
  have free : ∀ unit ∈ (base64Digits bytes).map (unitOf urlSafe), unit ≠ 0x3D := by
    intro unit listed
    obtain ⟨digit, digitIn, rfl⟩ := List.mem_map.mp listed
    exact (unitOf_spec urlSafe (small digit digitIn)).2
  have front : ((base64Digits bytes).map (unitOf urlSafe) ++
      List.replicate count 0x3D).takeWhile (· ≠ 0x3D) = (base64Digits bytes).map
        (unitOf urlSafe) := by
    rw [List.takeWhile_append_of_pos fun unit listed => by simpa using free unit listed]
    cases count with
    | zero => exact List.append_nil _
    | succ count => exact List.append_nil _
  rw [written]
  constructor
  · rw [decodeBase64_eq, front, filterMap_unitOf urlSafe small, base64Bytes_digits]
  · rw [base64ByteLength_append free few, List.length_map, length_base64Digits]

theorem decodeHex_encodeHex (bytes : List UInt8) : decodeHex (encodeHex bytes) = bytes := by
  induction bytes with
  | nil => rfl
  | cons byte rest ih =>
    have fits : (toHex byte.toNat).length ≤ 2 := length_toHex_le Nat.two_pos byte.toNat_lt
    have digits := isSome_hexValue_padStart 2 byte.toNat
    have number : hexNumber (padStart 2 0x30 (toHex byte.toNat)) = byte.toNat := by
      rw [padStart, hexNumber_replicate, hexNumber_toHex]
    obtain ⟨high, low, pair⟩ := List.length_eq_two.mp (length_padStart 0x30 fits)
    rw [pair] at digits number
    have written : encodeHex (byte :: rest) = high :: low :: encodeHex rest := by
      rw [encodeHex, List.flatMap_cons, pair]
      rfl
    rw [written, decodeHex, if_pos ⟨digits high (by simp), digits low (by simp)⟩, number, ih,
      UInt8.ofNat_toNat]

end NodeCompat

namespace Network

open NodeCompat

theorem encodeBase64_eq (bytes : List UInt8) : encodeBase64 bytes = base64Encode bytes := by
  induction bytes using base64Encode.induct with
  | case1 => rfl
  | case2 first => rfl
  | case3 first second => rfl
  | case4 first second third rest ih =>
    rw [encodeBase64, ih]
    rfl

/-- A word is the last digits that were read, as far as it holds them. -/
theorem appendDigit_toNat (buffer : BitVec 32) {digit : ℕ} (small : digit < 2 ^ 6) :
    (appendDigit buffer digit).toNat = (buffer.toNat * 2 ^ 6 + digit) % 2 ^ 32 := by
  have shifted : buffer.toNat <<< 6 % 2 ^ 32 = (buffer.toNat % 2 ^ 26) <<< 6 := by
    rw [Nat.shiftLeft_eq, Nat.shiftLeft_eq]
    omega
  have whole : digit % 2 ^ 32 = digit := Nat.mod_eq_of_lt (by omega)
  rw [appendDigit, BitVec.toNat_or, BitVec.toNat_shiftLeft, BitVec.toNat_ofNat, shifted, whole,
    or_eq_add small]
  omega

/-- A byte that is taken off a word does not show the word's sign. -/
theorem byteAt_eq {word : BitVec 32} {bits value : ℕ} (few : bits ≤ 24)
    (same : word.toNat / 2 ^ bits % 2 ^ 8 = value) : byteAt word bits = UInt8.ofNat value := by
  refine UInt8.toBitVec_inj.mp (BitVec.eq_of_getLsbD_eq fun index inside => ?_)
  change ((word.sshiftRight bits).setWidth 8).getLsbD index = (BitVec.ofNat 8 value).getLsbD index
  have within : bits + index < 32 := by omega
  have below : decide (32 ≤ index) = false := decide_eq_false (by omega)
  rw [BitVec.getLsbD_setWidth, BitVec.getLsbD_sshiftRight, BitVec.getLsbD_ofNat, ← same,
    Nat.testBit_mod_two_pow, Nat.testBit_div_two_pow, if_pos within, Nat.add_comm, below,
    Bool.not_false, Bool.true_and, decide_eq_true inside]
  rfl

theorem byteAt_group {first second : ℕ} (buffer : BitVec 32) (one : first < 2 ^ 6)
    (two : second < 2 ^ 6) :
    byteAt (appendDigit (appendDigit buffer first) second) 4 = base64First first second ∧
      byteAt (appendDigit (appendDigit buffer first) second) 2 = base64Second first second ∧
      byteAt (appendDigit (appendDigit buffer first) second) 0 = base64Third first second := by
  have word := appendDigit_toNat (appendDigit buffer first) two
  rw [appendDigit_toNat buffer one] at word
  exact ⟨byteAt_eq (by decide) (by omega), byteAt_eq (by decide) (by omega),
    byteAt_eq (by decide) (by omega)⟩

theorem decodeDigits_eq {digits : List ℕ} (small : ∀ digit ∈ digits, digit < 2 ^ 6)
    (buffer : BitVec 32) :
    decodeDigits buffer 0 (digits.map base64Digit) = some (base64Bytes digits) := by
  have shown : ∀ (word : BitVec 32) (digit : ℕ), digit < 2 ^ 6 → ∀ (bits : ℕ) (rest : Text),
      decodeDigits word bits (base64Digit digit :: rest) =
        if 8 ≤ bits + 6 then (decodeDigits (appendDigit word digit) (bits + 6 - 8) rest).map
          (byteAt (appendDigit word digit) (bits + 6 - 8) :: ·)
        else decodeDigits (appendDigit word digit) (bits + 6) rest := by
    intro word digit isDigit bits rest
    rw [decodeDigits, base64Value_digit digit isDigit]
  have ended : ∀ (word : BitVec 32) (bits : ℕ), decodeDigits word bits [] = some [] :=
    fun _ _ => rfl
  induction digits using base64Bytes.induct generalizing buffer with
  | case1 one two three four rest ih =>
    simp only [List.forall_mem_cons] at small
    obtain ⟨first, second, third, fourth, others⟩ := small
    simp only [List.map_cons, shown _ _ first, shown _ _ second, shown _ _ third, shown _ _ fourth,
      Nat.reduceAdd, Nat.reduceSub, Nat.reduceLeDiff, if_true, if_false, ih others,
      Option.map_some, byteAt_group _ first second, byteAt_group _ second third,
      byteAt_group _ third fourth]
    rfl
  | case2 one two three =>
    simp only [List.forall_mem_cons] at small
    obtain ⟨first, second, third, _⟩ := small
    simp only [List.map_cons, List.map_nil, shown _ _ first, shown _ _ second, shown _ _ third,
      Nat.reduceAdd, Nat.reduceSub, Nat.reduceLeDiff, if_true, if_false, ended,
      Option.map_some, byteAt_group _ first second, byteAt_group _ second third]
    rfl
  | case3 one two =>
    simp only [List.forall_mem_cons] at small
    obtain ⟨first, second, _⟩ := small
    simp only [List.map_cons, List.map_nil, shown _ _ first, shown _ _ second,
      Nat.reduceAdd, Nat.reduceSub, Nat.reduceLeDiff, if_true, if_false, ended,
      Option.map_some, byteAt_group _ first second]
    rfl
  | case4 digits many three two =>
    rcases digits with _ | ⟨first, _ | ⟨second, _ | ⟨third, _ | ⟨fourth, rest⟩⟩⟩⟩
    · rfl
    · rw [List.map_singleton, shown buffer first (small first List.mem_cons_self)]
      rfl
    · exact absurd rfl (two first second)
    · exact absurd rfl (three first second third)
    · exact absurd rfl (many first second third fourth rest)

theorem decodeBase64_encode (bytes : List UInt8) :
    decodeBase64 (base64Encode bytes) = some bytes := by
  have small := base64Digits_lt bytes
  have free : ∀ unit ∈ (base64Digits bytes).map base64Digit, unit ≠ 0x3D := by
    intro unit listed
    obtain ⟨digit, digitIn, rfl⟩ := List.mem_map.mp listed
    exact base64Digit_ne_pad digit (small digit digitIn)
  have clean : (base64Encode bytes).rdropWhile (· = 0x3D) = (base64Digits bytes).map
      base64Digit := by
    rw [base64Encode_eq]
    exact rdropWhile_pad free _
  rw [decodeBase64, clean, decodeDigits_eq small, base64Bytes_digits]

end Network

namespace NodeCompat

/-- What is written in base64 or hexadecimal is read back, by the mock router too, and its length
tells that of the bytes; rules are written alike. Any string is read as the digits in front of its
first `=`, and no group is read outside. -/
theorem encodings_exact :
    (∀ (bytes : List UInt8) (urlSafe : Bool),
      decodeBase64 (encodeBase64 bytes urlSafe) = some bytes ∧
        base64ByteLength (encodeBase64 bytes urlSafe) = bytes.length) ∧
    (∀ bytes : List UInt8, decodeHex (encodeHex bytes) = bytes) ∧
    (∀ bytes : List UInt8, Network.encodeBase64 bytes = encodeBase64 bytes false ∧
      Network.decodeBase64 (encodeBase64 bytes false) = some bytes) ∧
    ∀ value : Text, decodeBase64 value =
      some (base64Bytes ((value.takeWhile (· ≠ 0x3D)).filterMap sextetOf)) := by
  refine ⟨base64_round_trip, decodeHex_encodeHex, fun bytes => ?_, decodeBase64_eq⟩
  have written : encodeBase64 bytes false = base64Encode bytes := encodeGroups_eq bytes
  rw [written]
  exact ⟨Network.encodeBase64_eq bytes, Network.decodeBase64_encode bytes⟩

end NodeCompat

end Holonomy
