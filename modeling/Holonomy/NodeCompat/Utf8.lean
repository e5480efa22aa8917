import Holonomy.Foundation.StandardDecoder

/-!
# UTF-8 conversion

Strings are turned into bytes and back without the platform's encoder. The encoder replaces lone
surrogates and writes shortest forms, so the byte length that is counted is that of its result.
-/

namespace Holonomy.NodeCompat

open Foundation

/-- The code points that are visited, lone surrogates replaced. Behind the end of the string is no
unit that could close a pair. -/
def forEachUtf8CodePoint : Text → List ℕ
  | [] => []
  | unit :: rest =>
    if 0xD800 ≤ unit.toNat ∧ unit.toNat ≤ 0xDBFF then
      match rest with
      | [] => [0xFFFD]
      | next :: later =>
        if 0xDC00 ≤ next.toNat ∧ next.toNat ≤ 0xDFFF then
          (0x10000 + ((unit.toNat - 0xD800) <<< 10) + next.toNat - 0xDC00) ::
            forEachUtf8CodePoint later
        else 0xFFFD :: forEachUtf8CodePoint (next :: later)
    else if 0xDC00 ≤ unit.toNat ∧ unit.toNat ≤ 0xDFFF then 0xFFFD :: forEachUtf8CodePoint rest
    else unit.toNat :: forEachUtf8CodePoint rest

def utf8ByteLength (value : Text) : ℕ :=
  ((forEachUtf8CodePoint value).map fun codePoint =>
    if codePoint ≤ 0x7F then 1 else if codePoint ≤ 0x7FF then 2
    else if codePoint ≤ 0xFFFF then 3 else 4).sum

/-- The bytes that are pushed for a code point. -/
def pushed (codePoint : ℕ) : List ℕ :=
  if codePoint ≤ 0x7F then [codePoint]
  else if codePoint ≤ 0x7FF then [0xC0 ||| codePoint >>> 6, 0x80 ||| codePoint &&& 0x3F]
  else if codePoint ≤ 0xFFFF then
    [0xE0 ||| codePoint >>> 12, 0x80 ||| codePoint >>> 6 &&& 0x3F, 0x80 ||| codePoint &&& 0x3F]
  else
    [0xF0 ||| codePoint >>> 18, 0x80 ||| codePoint >>> 12 &&& 0x3F,
      0x80 ||| codePoint >>> 6 &&& 0x3F, 0x80 ||| codePoint &&& 0x3F]

def encodeUtf8 (value : Text) : List UInt8 :=
  ((forEachUtf8CodePoint value).flatMap pushed).map UInt8.ofNat

structure Utf8Sequence where
  codePointMask : ℕ
  secondMaximum : ℕ
  secondMinimum : ℕ
  width : ℕ

def sequenceForLead (lead : ℕ) : Option Utf8Sequence :=
  if 0xC2 ≤ lead ∧ lead ≤ 0xDF then
    some { codePointMask := 0x1F, secondMaximum := 0xBF, secondMinimum := 0x80, width := 2 }
  else if 0xE0 ≤ lead ∧ lead ≤ 0xEF then
    some { codePointMask := 0x0F
           secondMaximum := if lead = 0xED then 0x9F else 0xBF
           secondMinimum := if lead = 0xE0 then 0xA0 else 0x80
           width := 3 }
  else if 0xF0 ≤ lead ∧ lead ≤ 0xF4 then
    some { codePointMask := 0x07
           secondMaximum := if lead = 0xF4 then 0x8F else 0xBF
           secondMinimum := if lead = 0xF0 then 0x90 else 0x80
           width := 4 }
  else none

namespace Utf8Sequence

variable (sequence : Utf8Sequence)

def minimum (offset : ℕ) : ℕ := if offset = 1 then sequence.secondMinimum else 0x80

def maximum (offset : ℕ) : ℕ := if offset = 1 then sequence.secondMaximum else 0xBF

/-- What the loop over the bytes behind a lead finds. -/
structure Read where
  codePoint : ℕ
  consumed : ℕ
  valid : Bool

/-- The loop from an offset on, over the bytes that stand there. -/
def read : List UInt8 → ℕ → ℕ → Read
  | [], offset, codePoint => ⟨codePoint, offset, decide (sequence.width ≤ offset)⟩
  | byte :: rest, offset, codePoint =>
    if sequence.width ≤ offset then ⟨codePoint, offset, true⟩
    else if byte.toNat < sequence.minimum offset ∨ sequence.maximum offset < byte.toNat then
      ⟨codePoint, if offset = 1 then 1 else offset, false⟩
    else read rest (offset + 1) (codePoint <<< 6 ||| byte.toNat &&& 0x3F)

end Utf8Sequence

/-- The code point that is added at an index, and how far the index goes. -/
def decodeNext (lead : UInt8) (tail : List UInt8) : ℕ × ℕ :=
  if lead.toNat ≤ 0x7F then (lead.toNat, 1)
  else match sequenceForLead lead.toNat with
    | none => (0xFFFD, 1)
    | some sequence =>
      let read := sequence.read tail 1 (lead.toNat &&& sequence.codePointMask)
      (if read.valid then read.codePoint else 0xFFFD, read.consumed)

/-- The loop over the bytes that are left, in at most so many rounds. Nothing comes of it when the
rounds do not suffice, or when `String.fromCodePoint` throws. -/
def decodeLoop : ℕ → List UInt8 → Option Text
  | _, [] => some []
  | 0, _ :: _ => none
  | fuel + 1, lead :: tail =>
    if (decodeNext lead tail).1 ≤ 0x10FFFF then
      (decodeLoop fuel ((lead :: tail).drop (decodeNext lead tail).2)).map
        (fromCodePoint (decodeNext lead tail).1 ++ ·)
    else none

def decodeUtf8 (bytes : List UInt8) : Option Text := decodeLoop bytes.length bytes

/-- The string with every lone surrogate replaced. -/
def withoutLoneSurrogates (value : Text) : Text :=
  ((points value).map scalar).flatMap fromCodePoint

/-- The bytes are shortest forms of scalars, one after the other. -/
def WellFormedUtf8 (bytes : List UInt8) : Prop := (decodePoints bytes.length bytes).isSome = true

/-- The visited code points are those of the string, lone surrogates replaced. -/
theorem forEachUtf8CodePoint_eq (value : Text) :
    forEachUtf8CodePoint value = (points value).map scalar := by
  have lone (unit : UInt16) (isLone : IsSurrogate unit.toNat) : scalar unit.toNat = 0xFFFD :=
    if_pos isLone
  have plain (unit : UInt16) (notLead : ¬ (0xD800 ≤ unit.toNat ∧ unit.toNat ≤ 0xDBFF))
      (notTrail : ¬ (0xDC00 ≤ unit.toNat ∧ unit.toNat ≤ 0xDFFF)) : scalar unit.toNat = unit.toNat :=
    if_neg fun isLone => by unfold IsSurrogate at isLone; omega
  fun_induction points value with
  | case1 => rfl
  | case2 unit =>
    unfold forEachUtf8CodePoint
    split_ifs with lead trail
    · rw [List.map_singleton, lone unit ⟨lead.1, by omega⟩]
    · rw [List.map_singleton, lone unit ⟨by omega, trail.2⟩]
      rfl
    · rw [List.map_singleton, plain unit lead trail]
      rfl
  | case3 lead trail rest pair ih =>
    rw [Bool.and_eq_true, isLead_iff, isTrail_iff] at pair
    have paired :
        ¬ IsSurrogate (0x10000 + (lead.toNat - 0xD800) * 1024 + (trail.toNat - 0xDC00)) := by
      unfold IsSurrogate
      omega
    rw [List.map_cons, scalar, if_neg paired, ← ih, forEachUtf8CodePoint, if_pos pair.1,
      if_pos pair.2, Nat.shiftLeft_eq, Nat.add_sub_assoc pair.2.1]
  | case4 unit next rest single ih =>
    rw [Bool.and_eq_true, isLead_iff, isTrail_iff] at single
    rw [List.map_cons, ← ih]
    conv_lhs => unfold forEachUtf8CodePoint
    split_ifs with lead trail
    · rw [lone unit ⟨lead.1, by omega⟩]
      dsimp only
      rw [if_neg fun trail => single ⟨lead, trail⟩]
    · rw [lone unit ⟨by omega, trail.2⟩]
    · rw [plain unit lead trail]

/-- The bytes that are pushed are those of the shortest form. -/
theorem pushed_eq {codePoint : ℕ} (small : codePoint < 0x110000) :
    (pushed codePoint).map UInt8.ofNat = encodePoint codePoint := by
  have low (value : ℕ) : value &&& 0x3F = value % 64 := Nat.and_two_pow_sub_one_eq_mod value 6
  have join (bits value high : ℕ) (fits : value < 2 ^ bits) :
      2 ^ bits * high ||| value = 2 ^ bits * high + value :=
        (Nat.two_pow_add_eq_or_of_lt fits high).symm
  have next (value : ℕ) : 0x80 ||| value % 64 = 0x80 + value % 64 :=
    join 6 (value % 64) 2 (by omega)
  unfold pushed encodePoint
  simp only [low, next, Nat.shiftRight_eq_div_pow]
  split_ifs with one two three
  · rfl
  · have first : 0xC0 ||| codePoint / 2 ^ 6 = 0xC0 + codePoint / 2 ^ 6 := join 6 _ 3 (by omega)
    rw [first]
    rfl
  · have first : 0xE0 ||| codePoint / 2 ^ 12 = 0xE0 + codePoint / 2 ^ 12 := join 4 _ 14 (by omega)
    rw [first]
    rfl
  · have first : 0xF0 ||| codePoint / 2 ^ 18 = 0xF0 + codePoint / 2 ^ 18 := join 4 _ 15 (by omega)
    rw [first]
    rfl

/-- The replaced code points of a string are scalars. -/
theorem scalar_points (value : Text) :
    ∀ point ∈ (points value).map scalar, point < 0x110000 ∧ ¬ IsSurrogate point := by
  intro point listed
  obtain ⟨original, originalIn, rfl⟩ := List.mem_map.mp listed
  have small := points_lt value original originalIn
  unfold scalar
  split_ifs with lone
  · exact ⟨by decide, by decide⟩
  · exact ⟨small, lone⟩

/-- The encoder writes shortest forms of scalars. -/
theorem encodeUtf8_eq (value : Text) :
    encodeUtf8 value = ((points value).map scalar).flatMap encodePoint := by
  rw [encodeUtf8, forEachUtf8CodePoint_eq, List.map_flatMap]
  exact List.flatMap_congr fun point listed => pushed_eq (scalar_points value point listed).1

/-- The byte length that is counted is that of the bytes. -/
theorem utf8ByteLength_eq (value : Text) : utf8ByteLength value = (encodeUtf8 value).length := by
  rw [encodeUtf8_eq, utf8ByteLength, forEachUtf8CodePoint_eq, List.length_flatMap]
  congr 1
  exact List.map_congr_left fun point _ => (length_encodePoint point).symm

section Decoding

variable {sequence : Utf8Sequence}

/-- The loop stops behind the bytes that it has read. -/
theorem read_consumed (tail : List UInt8) {offset : ℕ} (codePoint : ℕ) :
    offset ≤ (sequence.read tail offset codePoint).consumed ∧
      (sequence.read tail offset codePoint).consumed ≤ offset + tail.length := by
  induction tail generalizing offset codePoint with
  | nil => exact ⟨le_rfl, le_rfl⟩
  | cons byte rest ih =>
    rw [Utf8Sequence.read]
    split_ifs with ended outside one
    · exact ⟨le_rfl, Nat.le_add_right _ _⟩
    · exact ⟨one.le, one ▸ Nat.le_add_right _ _⟩
    · exact ⟨le_rfl, Nat.le_add_right _ _⟩
    · have later : offset + 1 ≤ _ ∧ _ ≤ offset + 1 + rest.length :=
        ih (codePoint <<< 6 ||| byte.toNat &&& 0x3F)
      rw [List.length_cons]
      omega

/-- The loop ends behind the last byte of the sequence. -/
theorem read_ended (tail : List UInt8) {offset : ℕ} (codePoint : ℕ)
    (ended : sequence.width ≤ offset) : sequence.read tail offset codePoint =
    ⟨codePoint, offset, true⟩ := by
  cases tail with
  | nil => rw [Utf8Sequence.read, decide_eq_true ended]
  | cons byte rest => rw [Utf8Sequence.read, if_pos ended]

/-- The standard's decoder while the loop stands at an offset. -/
def Utf8Sequence.decoder (sequence : Utf8Sequence) (offset codePoint : ℕ) : Utf8Decoder :=
  { codePoint, bytesSeen := offset - 1, bytesNeeded := sequence.width - 1
    lowerBoundary := sequence.minimum offset, upperBoundary := sequence.maximum offset }

/-- The loop reads what the standard's decoder reads. -/
theorem run_decoder (tail : List UInt8) {offset : ℕ} (codePoint : ℕ) (begun : 1 ≤ offset)
    (left : offset < sequence.width) :
    Utf8Decoder.run (sequence.decoder offset codePoint) tail =
      (if (sequence.read tail offset codePoint).valid then
        (sequence.read tail offset codePoint).codePoint else 0xFFFD) ::
      Utf8Decoder.run {} (tail.drop ((sequence.read tail offset codePoint).consumed - offset)) := by
  have waits : sequence.width - 1 ≠ 0 := by omega
  induction tail generalizing offset codePoint with
  | nil =>
    have cut : decide (sequence.width ≤ offset) = false := decide_eq_false (Nat.not_le.mpr left)
    rw [Utf8Decoder.run, Utf8Sequence.read, cut, List.drop_nil]
    exact if_neg waits
  | cons byte rest ih =>
    rw [Utf8Sequence.read, if_neg (Nat.not_le.mpr left)]
    by_cases outside : byte.toNat < sequence.minimum offset ∨ sequence.maximum offset < byte.toNat
    · have same : (if offset = 1 then 1 else offset) = offset := by
        split_ifs with one
        · exact one.symm
        · rfl
      have again : Utf8Decoder.handle (sequence.decoder offset codePoint) byte.toNat =
          (0xFFFD :: (Utf8Decoder.start byte.toNat).1, (Utf8Decoder.start byte.toNat).2) :=
        (if_neg waits).trans (if_pos outside)
      rw [if_pos outside, Utf8Decoder.run, again, same]
      dsimp only
      rw [Nat.sub_self]
      rfl
    · rw [if_neg outside, Utf8Decoder.join_eq]
      rw [not_or, Nat.not_lt, Nat.not_lt] at outside
      by_cases last : offset + 1 = sequence.width
      · have complete : offset - 1 + 1 = sequence.width - 1 := by omega
        rw [read_ended rest _ last.ge, Utf8Decoder.run_last rest complete outside.1 outside.2]
        dsimp only
        rw [Nat.add_sub_cancel_left]
        rfl
      · have more : offset - 1 + 1 < sequence.width - 1 := by omega
        have later := ih (codePoint * 64 + byte.toNat % 64) (Nat.le_add_left 1 offset)
          (show offset + 1 < sequence.width by omega)
        have consumed : offset + 1 ≤
            (sequence.read rest (offset + 1) (codePoint * 64 + byte.toNat % 64)).consumed :=
          (read_consumed rest _).1
        have here : (sequence.read rest (offset + 1) (codePoint * 64 + byte.toNat % 64)).consumed
          - offset
            = (sequence.read rest (offset + 1) (codePoint * 64 + byte.toNat % 64)).consumed
              - (offset + 1) + 1 := by omega
        have moved : sequence.decoder (offset + 1) (codePoint * 64 + byte.toNat % 64) =
            { codePoint := codePoint * 64 + byte.toNat % 64, bytesSeen := offset - 1 + 1
              bytesNeeded := sequence.width - 1 } := by
          have inner : ¬ offset + 1 = 1 := by omega
          have seen : offset + 1 - 1 = offset - 1 + 1 := by omega
          rw [Utf8Sequence.decoder, Utf8Sequence.minimum, Utf8Sequence.maximum, if_neg inner,
            if_neg inner, seen]
        rw [here, List.drop_succ_cons, ← later, moved]
        exact Utf8Decoder.run_more rest more outside.1 outside.2

/-- Every lead announces bytes behind it. -/
theorem width_of_lead {lead : ℕ} (found : sequenceForLead lead = some sequence) :
    1 < sequence.width := by
  unfold sequenceForLead at found
  split_ifs at found <;> cases found <;> decide

/-- The standard's decoder begins what the table of leads says. -/
theorem start_eq (byte : ℕ) : Utf8Decoder.start byte =
    if byte ≤ 0x7F then ([byte], {}) else (sequenceForLead byte).elim ([0xFFFD], {})
      fun sequence => ([], sequence.decoder 1 (byte &&& sequence.codePointMask)) := by
  unfold Utf8Decoder.start sequenceForLead
  split_ifs <;> rfl

end Decoding

/-- One round reads what the standard's decoder reads first, and it goes on. -/
theorem run_decodeNext (lead : UInt8) (tail : List UInt8) :
    Utf8Decoder.run {} (lead :: tail) = (decodeNext lead tail).1 ::
      Utf8Decoder.run {} ((lead :: tail).drop (decodeNext lead tail).2) ∧
    0 < (decodeNext lead tail).2 ∧ (decodeNext lead tail).2 ≤ (lead :: tail).length := by
  have handled : Utf8Decoder.handle {} lead.toNat = Utf8Decoder.start lead.toNat := rfl
  have some' : 1 ≤ (lead :: tail).length := Nat.le_add_left 1 _
  rw [Utf8Decoder.run, handled, start_eq, decodeNext]
  by_cases ascii : lead.toNat ≤ 0x7F
  · rw [if_pos ascii, if_pos ascii]
    exact ⟨rfl, Nat.one_pos, some'⟩
  rw [if_neg ascii, if_neg ascii]
  cases found : sequenceForLead lead.toNat with
  | none => exact ⟨rfl, Nat.one_pos, some'⟩
  | some sequence =>
    have wide := width_of_lead found
    have consumed := @read_consumed sequence tail 1 (lead.toNat &&& sequence.codePointMask)
    refine ⟨?_, consumed.1, consumed.2.trans (Nat.add_comm 1 _).le⟩
    obtain ⟨left, there⟩ := Nat.exists_eq_add_of_le' consumed.1
    have read := run_decoder tail (lead.toNat &&& sequence.codePointMask) le_rfl wide
    dsimp only [Option.elim_some]
    rw [there, Nat.add_sub_cancel] at read
    rw [there, List.nil_append, read, List.drop_succ_cons]

/-- The decoder returns, with the text that the standard's decoder reads. -/
theorem decodeLoop_eq {fuel : ℕ} {bytes : List UInt8} (enough : bytes.length ≤ fuel) :
    decodeLoop fuel bytes = some (decodeStandard bytes) := by
  induction fuel generalizing bytes with
  | zero =>
    rw [List.length_eq_zero_iff.mp (Nat.le_zero.mp enough)]
    rfl
  | succ fuel ih =>
    cases bytes with
    | nil => rfl
    | cons lead tail =>
      obtain ⟨read, forward, within⟩ := run_decodeNext lead tail
      have small := Utf8Decoder.run_bounded (.inl rfl) (lead :: tail) (decodeNext lead tail).1
        (read ▸ List.mem_cons_self)
      have later := ih (show ((lead :: tail).drop (decodeNext lead tail).2).length ≤ fuel by
        rw [List.length_drop]
        omega)
      rw [decodeLoop, if_pos (by omega), later, decodeStandard, decodeStandard, read,
        List.flatMap_cons]
      rfl

/-- The bytes of scalars are decoded to them. -/
theorem decodeUtf8_flatMap {values : List ℕ}
    (scalars : ∀ point ∈ values, point < 0x110000 ∧ ¬ IsSurrogate point) :
    decodeUtf8 (values.flatMap encodePoint) = some (values.flatMap fromCodePoint) := by
  rw [decodeUtf8, decodeLoop_eq le_rfl, decodeStandard, Utf8Decoder.run_flatMap scalars]

/-- Bytes that are well formed are decoded to a text with these bytes. -/
theorem encodeUtf8_decodeUtf8 {bytes : List UInt8} (formed : WellFormedUtf8 bytes) :
    (decodeUtf8 bytes).map encodeUtf8 = some bytes := by
  obtain ⟨values, read⟩ := Option.isSome_iff_exists.mp formed
  obtain ⟨spelled, scalars⟩ := decodePoints_eq_some read
  have kept : values.map scalar = values := by
    refine (List.map_congr_left fun point listed => ?_).trans (List.map_id values)
    exact if_neg (scalars point listed).2
  rw [spelled, decodeUtf8_flatMap scalars, Option.map_some, encodeUtf8_eq,
    points_flatMap scalars, kept]

/-- The byte length is that of the bytes, which are well formed and give back the string with its
lone surrogates replaced; any bytes are decoded as the standard's decoder does, each round going
on, and well-formed bytes come back. -/
theorem utf8_exact :
    (∀ value, utf8ByteLength value = (encodeUtf8 value).length ∧ WellFormedUtf8 (encodeUtf8 value) ∧
      decodeUtf8 (encodeUtf8 value) = some (withoutLoneSurrogates value)) ∧
    (∀ lead tail, 0 < (decodeNext lead tail).2 ∧
      (decodeNext lead tail).2 ≤ (lead :: tail).length) ∧
    ∀ bytes, decodeUtf8 bytes = some (decodeStandard bytes) ∧
      (WellFormedUtf8 bytes → (decodeUtf8 bytes).map encodeUtf8 = some bytes) := by
  refine ⟨fun value => ⟨utf8ByteLength_eq value, ?_, ?_⟩, fun lead tail =>
    (run_decodeNext lead tail).2, fun bytes => ⟨decodeLoop_eq le_rfl, encodeUtf8_decodeUtf8⟩⟩
  · rw [WellFormedUtf8, encodeUtf8_eq, decodePoints_flatMap (scalar_points value) le_rfl]
    rfl
  · rw [encodeUtf8_eq, decodeUtf8_flatMap (scalar_points value), withoutLoneSurrogates]

/-- The euro sign. -/
theorem utf8_exact_euro : WellFormedUtf8 [0xE2, 0x82, 0xAC] ∧
    (decodeUtf8 [0xE2, 0x82, 0xAC]).map encodeUtf8 = some [0xE2, 0x82, 0xAC] := by
  have formed : WellFormedUtf8 [0xE2, 0x82, 0xAC] := by
    unfold WellFormedUtf8
    decide
  exact ⟨formed, (utf8_exact.2.2 [0xE2, 0x82, 0xAC]).2 formed⟩

end Holonomy.NodeCompat
