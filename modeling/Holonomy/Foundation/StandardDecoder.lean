import Holonomy.Foundation.Text

/-!
# The decoder of the Encoding Standard

The standard's UTF-8 decoder takes one byte after the other. It knows how many bytes the code point
at hand still needs and between which bounds the next byte must lie.
-/

namespace Holonomy.Foundation

/-! ## What a strict reader reads

A text that was read from bytes is well formed, and the bytes are those it is written in, perhaps
behind a mark that was taken off.
-/

/-- A continuation byte carries six bits. -/
theorem isContinuation_iff (byte : UInt8) :
    isContinuation byte = true ↔ 0x80 ≤ byte.toNat ∧ byte.toNat ≤ 0xBF := by
  unfold isContinuation
  rw [Bool.and_eq_true, decide_eq_true_eq, decide_eq_true_eq, UInt8.le_iff_toNat_le,
    UInt8.le_iff_toNat_le]
  rfl

variable {byte : UInt8}

/-- A byte is its number. -/
theorem ofNat_eq_of_toNat {value : ℕ} (same : value = byte.toNat) :
    UInt8.ofNat value = byte := by
  rw [same, UInt8.ofNat_toNat]

theorem decodePoint_eq_some {bytes rest : List UInt8} {point : ℕ}
    (read : decodePoint bytes = some (point, rest)) :
    bytes = encodePoint point ++ rest ∧ point < 0x110000 ∧ ¬ IsSurrogate point := by
  cases bytes with
  | nil => cases read
  | cons first tail =>
    have bound := first.toNat_lt
    simp only [decodePoint] at read
    split_ifs at read with ascii stray two three
    · cases read
      refine ⟨?_, by omega, fun surrogate => by unfold IsSurrogate at surrogate; omega⟩
      rw [encodePoint, if_pos (by omega), UInt8.ofNat_toNat]
      rfl
    · cases tail with
      | nil => cases read
      | cons second tail =>
        obtain ⟨fits, same⟩ := Option.ite_none_right_eq_some.mp read
        rw [Bool.and_eq_true, isContinuation_iff, decide_eq_true_eq] at fits
        obtain ⟨value, rfl⟩ := Prod.mk.inj (Option.some.inj same)
        refine ⟨?_, by omega, fun surrogate => by unfold IsSurrogate at surrogate; omega⟩
        rw [encodePoint, if_neg (by omega), if_pos (by omega),
          ofNat_eq_of_toNat (by omega : _ = first.toNat),
            ofNat_eq_of_toNat (by omega : _ = second.toNat)]
        rfl
    · cases tail with
      | nil => cases read
      | cons second tail =>
        cases tail with
        | nil => cases read
        | cons third tail =>
          obtain ⟨fits, same⟩ := Option.ite_none_right_eq_some.mp read
          simp only [Bool.and_eq_true, isContinuation_iff, decide_eq_true_eq] at fits
          obtain ⟨⟨⟨continued, last⟩, large⟩, scalar⟩ := fits
          obtain ⟨value, rfl⟩ := Prod.mk.inj (Option.some.inj same)
          rw [value] at scalar
          refine ⟨?_, by omega, scalar⟩
          rw [encodePoint, if_neg (by omega), if_neg (by omega), if_pos (by omega),
            ofNat_eq_of_toNat (by omega : _ = first.toNat),
              ofNat_eq_of_toNat (by omega : _ = second.toNat),
            ofNat_eq_of_toNat (by omega : _ = third.toNat)]
          rfl
    · cases tail with
      | nil => cases read
      | cons second tail =>
        cases tail with
        | nil => cases read
        | cons third tail =>
          cases tail with
          | nil => cases read
          | cons fourth tail =>
            obtain ⟨fits, same⟩ := Option.ite_none_right_eq_some.mp read
            simp only [Bool.and_eq_true, isContinuation_iff, decide_eq_true_eq] at fits
            obtain ⟨⟨⟨⟨continued, next⟩, last⟩, large⟩, small⟩ := fits
            obtain ⟨value, rfl⟩ := Prod.mk.inj (Option.some.inj same)
            refine ⟨?_, by omega, fun surrogate => by unfold IsSurrogate at surrogate; omega⟩
            rw [encodePoint, if_neg (by omega), if_neg (by omega), if_neg (by omega),
              ofNat_eq_of_toNat (by omega : _ = first.toNat),
              ofNat_eq_of_toNat (by omega : _ = second.toNat),
              ofNat_eq_of_toNat (by omega : _ = third.toNat),
              ofNat_eq_of_toNat (by omega : _ = fourth.toNat)]
            rfl

variable {values : List ℕ}

theorem decodePoints_eq_some {fuel : ℕ} {bytes : List UInt8}
    (read : decodePoints fuel bytes = some values) :
    bytes = values.flatMap encodePoint ∧
      ∀ point ∈ values, point < 0x110000 ∧ ¬ IsSurrogate point := by
  induction fuel generalizing bytes values with
  | zero =>
    cases bytes with
    | nil =>
      cases read
      exact ⟨rfl, fun point none => absurd none List.not_mem_nil⟩
    | cons byte bytes => cases read
  | succ fuel ih =>
    cases bytes with
    | nil =>
      cases read
      exact ⟨rfl, fun point none => absurd none List.not_mem_nil⟩
    | cons byte bytes =>
      simp only [decodePoints, Option.bind_eq_bind, Option.bind_eq_some_iff] at read
      obtain ⟨⟨point, rest⟩, first, later, others, same⟩ := read
      cases same
      obtain ⟨whole, small, scalar⟩ := decodePoint_eq_some first
      obtain ⟨behind, scalars⟩ := ih others
      refine ⟨?_, ?_⟩
      · rw [whole, List.flatMap_cons, ← behind]
      · exact List.forall_mem_cons.mpr ⟨⟨small, scalar⟩, scalars⟩

theorem points_flatMap (scalars : ∀ point ∈ values, point < 0x110000 ∧ ¬ IsSurrogate point) :
    points (values.flatMap fromCodePoint) = values := by
  induction values with
  | nil => rfl
  | cons point values ih =>
    rw [List.forall_mem_cons] at scalars
    rw [List.flatMap_cons, points_fromCodePoint point scalars.1.1 scalars.1.2, ih scalars.2]

/-- The mark is taken off where it stands. -/
theorem decodeUtf8_eq_some {bytes : List UInt8} {text : Text}
    (read : decodeUtf8 bytes = some text) :
    WellFormed text ∧ bytes =
      (if byteOrderMark <+: bytes then byteOrderMark else []) ++ encodeUtf8 text := by
  unfold decodeUtf8 at read
  obtain ⟨values, found, same⟩ := Option.map_eq_some_iff.mp read
  obtain ⟨whole, scalars⟩ := decodePoints_eq_some found
  have spelled : points text = values := by
    rw [← same, points_flatMap scalars]
  have formed : WellFormed text := by
    intro point pointIn
    rw [spelled] at pointIn
    exact (scalars point pointIn).2
  refine ⟨formed, ?_⟩
  rw [encodeUtf8_of_wellFormed formed, spelled, ← whole]
  split_ifs with marked
  · obtain ⟨body, rfl⟩ := marked
    rfl
  · rfl

/-- Nothing is taken off a text that no mark opens. -/
theorem withoutMark_eq_self {text : Text} : withoutMark text = text ↔ text.head? ≠ some 0xFEFF := by
  unfold withoutMark
  split_ifs with marked
  · refine ⟨fun same => ?_, fun unmarked => absurd marked unmarked⟩
    cases text with
    | nil => cases marked
    | cons unit rest => exact absurd same.symm (List.cons_ne_self unit rest)
  · exact ⟨fun _ => marked, fun _ => rfl⟩

/-- A code point is written in as many bytes as it is wide. -/
theorem length_encodePoint (point : ℕ) : (encodePoint point).length = width point := by
  unfold encodePoint width
  split_ifs <;> rfl

/-- A text is written in as many bytes as its code points are wide. -/
theorem length_encodeUtf8 {text : Text} (formed : WellFormed text) :
    (encodeUtf8 text).length = utf8ByteLength text := by
  rw [encodeUtf8_of_wellFormed formed, utf8ByteLength, List.length_flatMap]
  congr 1
  exact List.map_congr_left fun point _ => length_encodePoint point

/-- What the decoder knows between two bytes. -/
structure Utf8Decoder where
  codePoint : ℕ := 0
  bytesSeen : ℕ := 0
  bytesNeeded : ℕ := 0
  lowerBoundary : ℕ := 0x80
  upperBoundary : ℕ := 0xBF

namespace Utf8Decoder

/-- A byte that begins something. -/
def start (byte : ℕ) : List ℕ × Utf8Decoder :=
  if byte ≤ 0x7F then ([byte], {})
  else if 0xC2 ≤ byte ∧ byte ≤ 0xDF then ([], { codePoint := byte &&& 0x1F, bytesNeeded := 1 })
  else if 0xE0 ≤ byte ∧ byte ≤ 0xEF then
    ([], { codePoint := byte &&& 0xF, bytesNeeded := 2
           lowerBoundary := if byte = 0xE0 then 0xA0 else 0x80
           upperBoundary := if byte = 0xED then 0x9F else 0xBF })
  else if 0xF0 ≤ byte ∧ byte ≤ 0xF4 then
    ([], { codePoint := byte &&& 0x7, bytesNeeded := 3
           lowerBoundary := if byte = 0xF0 then 0x90 else 0x80
           upperBoundary := if byte = 0xF4 then 0x8F else 0xBF })
  else ([0xFFFD], {})

/-- The code points that a byte completes, and the decoder behind it. -/
def handle (decoder : Utf8Decoder) (byte : ℕ) : List ℕ × Utf8Decoder :=
  if decoder.bytesNeeded = 0 then start byte
  else if byte < decoder.lowerBoundary ∨ decoder.upperBoundary < byte then
    (0xFFFD :: (start byte).1, (start byte).2)
  else if decoder.bytesSeen + 1 = decoder.bytesNeeded then
    ([decoder.codePoint <<< 6 ||| byte &&& 0x3F], {})
  else ([], { codePoint := decoder.codePoint <<< 6 ||| byte &&& 0x3F
              bytesSeen := decoder.bytesSeen + 1
              bytesNeeded := decoder.bytesNeeded })

/-- The code points of all bytes; a code point that is cut off is an error. -/
def run : Utf8Decoder → List UInt8 → List ℕ
  | decoder, [] => if decoder.bytesNeeded = 0 then [] else [0xFFFD]
  | decoder, byte :: rest =>
    (decoder.handle byte.toNat).1 ++ run (decoder.handle byte.toNat).2 rest

/-- Six bits more. -/
theorem join_eq (high byte : ℕ) : high <<< 6 ||| byte &&& 0x3F = high * 64 + byte % 64 := by
  have low : byte &&& 0x3F = byte % 64 := Nat.and_two_pow_sub_one_eq_mod byte 6
  have small : byte % 64 < 2 ^ 6 := Nat.mod_lt byte (by decide)
  rw [low, ← Nat.shiftLeft_add_eq_or_of_lt small, Nat.shiftLeft_eq]

variable {decoder : Utf8Decoder}

/-- A byte within the bounds is taken. -/
theorem handle_within {byte : ℕ} (waits : decoder.bytesNeeded ≠ 0)
    (low : decoder.lowerBoundary ≤ byte) (high : byte ≤ decoder.upperBoundary) :
    decoder.handle byte = if decoder.bytesSeen + 1 = decoder.bytesNeeded then
      ([decoder.codePoint * 64 + byte % 64], {})
    else ([], { codePoint := decoder.codePoint * 64 + byte % 64
                bytesSeen := decoder.bytesSeen + 1
                bytesNeeded := decoder.bytesNeeded }) := by
  rw [handle, if_neg waits, if_neg (by omega), join_eq]

/-- A byte within the bounds is taken while more are needed. -/
theorem run_more (rest : List UInt8)
    (more : decoder.bytesSeen + 1 < decoder.bytesNeeded) (low : decoder.lowerBoundary ≤ byte.toNat)
    (high : byte.toNat ≤ decoder.upperBoundary) : run decoder (byte :: rest) =
      run { codePoint := decoder.codePoint * 64 + byte.toNat % 64
            bytesSeen := decoder.bytesSeen + 1
            bytesNeeded := decoder.bytesNeeded } rest := by
  rw [run, handle_within (by omega) low high, if_neg more.ne, List.nil_append]

/-- The last byte completes the code point. -/
theorem run_last (rest : List UInt8)
    (last : decoder.bytesSeen + 1 = decoder.bytesNeeded)
    (low : decoder.lowerBoundary ≤ byte.toNat) (high : byte.toNat ≤ decoder.upperBoundary) :
    run decoder (byte :: rest) = (decoder.codePoint * 64 + byte.toNat % 64) :: run {} rest := by
  rw [run, handle_within (by omega) low high, if_pos last, List.singleton_append]

/-- The bytes of a scalar are read as the scalar. -/
theorem run_encodePoint {point : ℕ} (small : point < 0x110000) (paired : ¬ IsSurrogate point)
    (rest : List UInt8) : run {} (encodePoint point ++ rest) = point :: run {} rest := by
  have byte (value : ℕ) (fits : value < 256) : (UInt8.ofNat value).toNat = value := by
    simp [fits]
  have opens {value : ℕ} (fits : value < 256) {decoder : Utf8Decoder} (rest : List UInt8)
      (begun : start value = ([], decoder)) :
      run {} (UInt8.ofNat value :: rest) = run decoder rest := by
    have handled : handle {} value = start value := rfl
    rw [run, byte value fits, handled, begun, List.nil_append]
  have mask (value bits : ℕ) : value &&& (2 ^ bits - 1) = value % 2 ^ bits :=
    Nat.and_two_pow_sub_one_eq_mod value bits
  have third := byte (0x80 + point / 4096 % 64) (by omega)
  have second := byte (0x80 + point / 64 % 64) (by omega)
  have first := byte (0x80 + point % 64) (by omega)
  unfold IsSurrogate at paired
  unfold encodePoint
  split_ifs with one two three
  · have begun : start point = ([point], {}) := if_pos one
    have handled : handle {} point = start point := rfl
    rw [List.singleton_append, run, byte point (by omega), handled, begun, List.singleton_append]
  · have begun : start (0xC0 + point / 64) = ([], ⟨point / 64, 0, 1, 0x80, 0xBF⟩) := by
      have low : (0xC0 + point / 64) &&& 0x1F = point / 64 := (mask _ 5).trans (by omega)
      rw [start, if_neg (by omega), if_pos (by omega), low]
    simp only [List.cons_append, List.nil_append]
    rw [opens (by omega) _ begun, run_last _ rfl, first]
    · have value : point / 64 * 64 + (0x80 + point % 64) % 64 = point := by omega
      rw [value]
    all_goals
      rw [first]
      dsimp only
      omega
  · have begun : start (0xE0 + point / 4096) = ([], ⟨point / 4096, 0, 2,
        if 0xE0 + point / 4096 = 0xE0 then 0xA0 else 0x80,
        if 0xE0 + point / 4096 = 0xED then 0x9F else 0xBF⟩) := by
      have low : (0xE0 + point / 4096) &&& 0xF = point / 4096 := (mask _ 4).trans (by omega)
      rw [start, if_neg (by omega), if_neg (by omega), if_pos (by omega), low]
    simp only [List.cons_append, List.nil_append]
    rw [opens (by omega) _ begun, run_more _ (show 0 + 1 < 2 by decide), run_last _ rfl,
      first, second]
    · have value : (point / 4096 * 64 + (0x80 + point / 64 % 64) % 64) * 64
          + (0x80 + point % 64) % 64 = point := by omega
      rw [value]
    all_goals
      first | rw [first] | rw [second]
      dsimp only
      first | omega | (split_ifs <;> omega)
  · have begun : start (0xF0 + point / 262144) = ([], ⟨point / 262144, 0, 3,
        if 0xF0 + point / 262144 = 0xF0 then 0x90 else 0x80,
        if 0xF0 + point / 262144 = 0xF4 then 0x8F else 0xBF⟩) := by
      have low : (0xF0 + point / 262144) &&& 0x7 = point / 262144 := (mask _ 3).trans (by omega)
      rw [start, if_neg (by omega), if_neg (by omega), if_neg (by omega), if_pos (by omega), low]
    simp only [List.cons_append, List.nil_append]
    rw [opens (by omega) _ begun, run_more _ (show 0 + 1 < 3 by decide),
      run_more _ (show 1 + 1 < 3 by decide), run_last _ rfl, first, second, third]
    · have value : ((point / 262144 * 64 + (0x80 + point / 4096 % 64) % 64) * 64
          + (0x80 + point / 64 % 64) % 64) * 64 + (0x80 + point % 64) % 64 = point := by omega
      rw [value]
    all_goals
      first | rw [first] | rw [second] | rw [third]
      dsimp only
      first | omega | (split_ifs <;> omega)

/-- The bytes of scalars are read as the scalars. -/
theorem run_flatMap (scalars : ∀ point ∈ values, point < 0x110000 ∧ ¬ IsSurrogate point) :
    run {} (values.flatMap encodePoint) = values := by
  induction values with
  | nil => rfl
  | cons point rest ih =>
    rw [List.forall_mem_cons] at scalars
    rw [List.flatMap_cons, run_encodePoint scalars.1.1 scalars.1.2, ih scalars.2]

/-- The bytes that a code point still needs cannot take it out of the code space. -/
def Bounded (decoder : Utf8Decoder) : Prop :=
  decoder.bytesNeeded = 0 ∨ ∃ left ≤ 2, decoder.bytesNeeded = decoder.bytesSeen + left + 1 ∧
    0x80 ≤ decoder.lowerBoundary ∧ decoder.upperBoundary ≤ 0xBF ∧
    (decoder.codePoint * 64 + decoder.upperBoundary % 64 + 1) * 64 ^ left ≤ 0x110000

/-- What a byte begins stays within the code space. -/
theorem start_bounded (byte : ℕ) :
    (∀ point ∈ (start byte).1, point < 0x110000) ∧ (start byte).2.Bounded := by
  have nothing (point : ℕ) (listed : point ∈ ([] : List ℕ)) : point < 0x110000 :=
    absurd listed List.not_mem_nil
  have mask (bits : ℕ) : byte &&& (2 ^ bits - 1) = byte % 2 ^ bits :=
    Nat.and_two_pow_sub_one_eq_mod byte bits
  have two : byte &&& 0x1F = byte % 32 := mask 5
  have three : byte &&& 0xF = byte % 16 := mask 4
  have four : byte &&& 0x7 = byte % 8 := mask 3
  unfold start
  by_cases ascii : byte ≤ 0x7F
  · rw [if_pos ascii]
    exact ⟨by simp; omega, .inl rfl⟩
  by_cases isTwo : 0xC2 ≤ byte ∧ byte ≤ 0xDF
  · rw [if_neg ascii, if_pos isTwo, two]
    refine ⟨nothing, .inr ⟨0, by decide, rfl, ?_⟩⟩
    dsimp only
    omega
  by_cases isThree : 0xE0 ≤ byte ∧ byte ≤ 0xEF
  · rw [if_neg ascii, if_neg isTwo, if_pos isThree, three]
    refine ⟨nothing, .inr ⟨1, by decide, rfl, ?_⟩⟩
    dsimp only
    split_ifs <;> omega
  by_cases isFour : 0xF0 ≤ byte ∧ byte ≤ 0xF4
  · rw [if_neg ascii, if_neg isTwo, if_neg isThree, if_pos isFour, four]
    refine ⟨nothing, .inr ⟨2, by decide, rfl, ?_⟩⟩
    dsimp only
    split_ifs <;> omega
  · rw [if_neg ascii, if_neg isTwo, if_neg isThree, if_neg isFour]
    exact ⟨by simp, .inl rfl⟩

/-- A byte keeps the decoder within the code space. -/
theorem handle_bounded (bounded : decoder.Bounded) (byte : ℕ) :
    (∀ point ∈ (decoder.handle byte).1, point < 0x110000) ∧ (decoder.handle byte).2.Bounded := by
  have begun := start_bounded byte
  by_cases rests : decoder.bytesNeeded = 0
  · rw [handle, if_pos rests]
    exact begun
  by_cases outside : byte < decoder.lowerBoundary ∨ decoder.upperBoundary < byte
  · rw [handle, if_neg rests, if_pos outside]
    exact ⟨List.forall_mem_cons.mpr ⟨by decide, begun.1⟩, begun.2⟩
  rw [not_or, Nat.not_lt, Nat.not_lt] at outside
  rw [handle_within rests outside.1 outside.2]
  obtain ⟨left, few, needs, low, high, room⟩ := bounded.resolve_left rests
  cases left with
  | zero =>
    rw [if_pos (by omega)]
    exact ⟨by simp; omega, .inl rfl⟩
  | succ left =>
    rw [if_neg (by omega)]
    refine ⟨by simp, .inr ⟨left, by omega, by dsimp only; omega, ?_⟩⟩
    have cases' : left = 0 ∨ left = 1 := by omega
    rcases cases' with rfl | rfl <;> dsimp only at room ⊢ <;> omega

/-- The decoder stays within the code space. -/
theorem run_bounded (bounded : decoder.Bounded) (bytes : List UInt8) :
    ∀ point ∈ run decoder bytes, point < 0x110000 := by
  induction bytes generalizing decoder with
  | nil =>
    unfold run
    split_ifs <;> simp
  | cons byte rest ih =>
    have step := handle_bounded bounded byte.toNat
    intro point listed
    exact (List.mem_append.mp listed).elim (step.1 point) (ih step.2 point)

end Utf8Decoder

/-- The text that the standard's decoder reads. -/
def decodeStandard (bytes : List UInt8) : Text :=
  (Utf8Decoder.run {} bytes).flatMap fromCodePoint

end Holonomy.Foundation
