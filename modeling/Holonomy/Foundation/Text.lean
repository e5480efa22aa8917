import Mathlib

/-!
# UTF-16 text

A text is a list of UTF-16 code units, surrogates included, because that is what the modelled
language compares, measures and cuts. Code points are read off the units; a surrogate that has no
partner is a code point of its own.
-/

namespace Holonomy.Foundation

/-- Code units compare by value. -/
instance unitLinearOrder : LinearOrder UInt16 where
  le_refl := UInt16.le_refl
  le_trans _ _ _ := UInt16.le_trans
  le_antisymm _ _ := UInt16.le_antisymm
  le_total := UInt16.le_total
  lt_iff_le_not_ge _ _ := by rw [UInt16.not_le, UInt16.lt_iff_toNat_lt,
    UInt16.le_iff_toNat_le]; omega
  toDecidableLE := inferInstance

/-- A string as its UTF-16 code units. -/
abbrev Text := List UInt16

/-- Texts are equal unit by unit. -/
instance textLawfulBEq : LawfulBEq Text := inferInstance

/-- The unit opens a surrogate pair. -/
def isLead (unit : UInt16) : Bool := 0xD800 ≤ unit && unit ≤ 0xDBFF

/-- The unit closes a surrogate pair. -/
def isTrail (unit : UInt16) : Bool := 0xDC00 ≤ unit && unit ≤ 0xDFFF

def points : Text → List ℕ
  | [] => []
  | [unit] => [unit.toNat]
  | lead :: trail :: rest =>
    if isLead lead && isTrail trail then
      (0x10000 + (lead.toNat - 0xD800) * 1024 + (trail.toNat - 0xDC00)) :: points rest
    else lead.toNat :: points (trail :: rest)

def fromCodePoint (point : ℕ) : Text :=
  if point < 0x10000 then [UInt16.ofNat point]
  else [UInt16.ofNat (0xD800 + (point - 0x10000) / 1024),
    UInt16.ofNat (0xDC00 + (point - 0x10000) % 1024)]

def js (literal : String) : Text := literal.toList.flatMap fun character =>
  fromCodePoint character.toNat

/-- A code point with no partner of its own. -/
def IsSurrogate (point : ℕ) : Prop := 0xD800 ≤ point ∧ point ≤ 0xDFFF
  deriving Decidable

def WellFormed (text : Text) : Prop := ∀ point ∈ points text, ¬ IsSurrogate point
  deriving Decidable

/-- The number of UTF-8 bytes of a code point. -/
def width (point : ℕ) : ℕ :=
  if point ≤ 0x7F then 1 else if point ≤ 0x7FF then 2 else if point ≤ 0xFFFF then 3 else 4

def utf8ByteLength (text : Text) : ℕ := ((points text).map width).sum

/-- The UTF-8 bytes of a code point. -/
def encodePoint (point : ℕ) : List UInt8 :=
  if point ≤ 0x7F then [UInt8.ofNat point]
  else if point ≤ 0x7FF then
    [UInt8.ofNat (0xC0 + point / 64), UInt8.ofNat (0x80 + point % 64)]
  else if point ≤ 0xFFFF then
    [UInt8.ofNat (0xE0 + point / 4096), UInt8.ofNat (0x80 + point / 64 % 64),
      UInt8.ofNat (0x80 + point % 64)]
  else
    [UInt8.ofNat (0xF0 + point / 262144), UInt8.ofNat (0x80 + point / 4096 % 64),
      UInt8.ofNat (0x80 + point / 64 % 64), UInt8.ofNat (0x80 + point % 64)]

/-- Unpaired surrogates are written as the replacement character. -/
def scalar (point : ℕ) : ℕ := if IsSurrogate point then 0xFFFD else point

/-- The UTF-8 bytes of a text. -/
def encodeUtf8 (text : Text) : List UInt8 := (points text).flatMap fun point =>
  encodePoint (scalar point)

def isContinuation (byte : UInt8) : Bool := 0x80 ≤ byte && byte ≤ 0xBF

/-- Read one code point from its UTF-8 bytes; only the shortest form of a scalar is read. -/
def decodePoint : List UInt8 → Option (ℕ × List UInt8)
  | [] => none
  | first :: rest =>
    if first.toNat < 0x80 then some (first.toNat, rest)
    else if first.toNat < 0xC0 then none
    else if first.toNat < 0xE0 then match rest with
      | second :: rest =>
        let point := (first.toNat - 0xC0) * 64 + (second.toNat - 0x80)
        if isContinuation second && 0x80 ≤ point then some (point, rest) else none
      | _ => none
    else if first.toNat < 0xF0 then match rest with
      | second :: third :: rest =>
        let point := (first.toNat - 0xE0) * 4096 + (second.toNat - 0x80) * 64 + (third.toNat - 0x80)
        if isContinuation second && isContinuation third && 0x800 ≤ point && ¬ IsSurrogate point
        then some (point, rest) else none
      | _ => none
    else match rest with
      | second :: third :: fourth :: rest =>
        let point := (first.toNat - 0xF0) * 262144 + (second.toNat - 0x80) * 4096
          + (third.toNat - 0x80) * 64 + (fourth.toNat - 0x80)
        if isContinuation second && isContinuation third && isContinuation fourth
          && 0x10000 ≤ point && point ≤ 0x10FFFF then some (point, rest) else none
      | _ => none

/-- The code points of UTF-8 bytes, at most so many. -/
def decodePoints : ℕ → List UInt8 → Option (List ℕ)
  | _, [] => some []
  | 0, _ :: _ => none
  | fuel + 1, bytes => do
    let (point, rest) ← decodePoint bytes
    let later ← decodePoints fuel rest
    some (point :: later)

/-- The bytes of the mark that may open a text. -/
def byteOrderMark : List UInt8 := [0xEF, 0xBB, 0xBF]

def decodeUtf8 (bytes : List UInt8) : Option Text :=
  let body := if byteOrderMark <+: bytes then bytes.drop 3 else bytes
  (decodePoints body.length body).map fun found => found.flatMap fromCodePoint

section Points

variable {text left right : Text}

/-- The first half of the surrogates opens a pair. -/
theorem isLead_iff (unit : UInt16) :
    isLead unit = true ↔ 0xD800 ≤ unit.toNat ∧ unit.toNat ≤ 0xDBFF := by
  simp [isLead, UInt16.le_iff_toNat_le]

/-- The second half of the surrogates closes a pair. -/
theorem isTrail_iff (unit : UInt16) :
    isTrail unit = true ↔ 0xDC00 ≤ unit.toNat ∧ unit.toNat ≤ 0xDFFF := by
  simp [isTrail, UInt16.le_iff_toNat_le]

/-- Every code point fits the code space. -/
theorem points_lt (text : Text) : ∀ point ∈ points text, point < 0x110000 := by
  fun_induction points text with
  | case1 => simp
  | case2 unit =>
    have bound := unit.toNat_lt
    simp only [List.mem_singleton, forall_eq]
    omega
  | case3 lead trail rest pair ih =>
    rw [Bool.and_eq_true, isLead_iff, isTrail_iff] at pair
    intro point pointIn
    rcases List.mem_cons.mp pointIn with head | later
    · omega
    · exact ih point later
  | case4 lead trail rest single ih =>
    intro point pointIn
    rcases List.mem_cons.mp pointIn with rfl | later
    · have bound := lead.toNat_lt
      omega
    · exact ih point later

theorem flatMap_points (text : Text) : (points text).flatMap fromCodePoint = text := by
  fun_induction points text with
  | case1 => rfl
  | case2 unit =>
    have bound := unit.toNat_lt
    simp [fromCodePoint, bound]
  | case3 lead trail rest pair ih =>
    rw [Bool.and_eq_true, isLead_iff, isTrail_iff] at pair
    have leadBack : 0xD800 + (0x10000 + (lead.toNat - 0xD800) * 1024 + (trail.toNat - 0xDC00)
        - 0x10000) / 1024 = lead.toNat := by omega
    have trailBack : 0xDC00 + (0x10000 + (lead.toNat - 0xD800) * 1024 + (trail.toNat - 0xDC00)
        - 0x10000) % 1024 = trail.toNat := by omega
    have large : ¬ 0x10000 + (lead.toNat - 0xD800) * 1024 + (trail.toNat - 0xDC00) < 0x10000 := by
      omega
    rw [List.flatMap_cons, ih, fromCodePoint, if_neg large, leadBack, trailBack]
    simp
  | case4 lead trail rest single ih =>
    have bound := lead.toNat_lt
    simp only [List.flatMap_cons, ih]
    simp [fromCodePoint, bound]

/-- The code points determine the text. -/
theorem points_injective : Function.Injective points := by
  intro left right same
  rw [← flatMap_points left, ← flatMap_points right, same]

theorem points_cons (unit : UInt16) (rest : Text) (single : isLead unit = false) :
    points (unit :: rest) = unit.toNat :: points rest := by
  cases rest with
  | nil => rfl
  | cons next rest => rw [points, single, Bool.false_and, if_neg Bool.false_ne_true]

/-- Reading the code points undoes writing a scalar. -/
theorem points_fromCodePoint (point : ℕ) (small : point < 0x110000)
    (paired : ¬ IsSurrogate point) (rest : Text) :
    points (fromCodePoint point ++ rest) = point :: points rest := by
  have unit (value : ℕ) (fits : value < 0x10000) : (UInt16.ofNat value).toNat = value := by
    simp [fits]
  unfold fromCodePoint
  split
  · next basic =>
    have single : isLead (UInt16.ofNat point) = false := by
      rw [Bool.eq_false_iff, ne_eq, isLead_iff, unit point basic]
      unfold IsSurrogate at paired
      omega
    rw [List.singleton_append, points_cons _ _ single, unit point basic]
  · next large =>
    have lead : isLead (UInt16.ofNat (0xD800 + (point - 0x10000) / 1024)) = true := by
      rw [isLead_iff, unit _ (by omega)]
      omega
    have trail : isTrail (UInt16.ofNat (0xDC00 + (point - 0x10000) % 1024)) = true := by
      rw [isTrail_iff, unit _ (by omega)]
      omega
    simp only [List.cons_append, List.nil_append, points]
    have value : 0x10000 + (0xD800 + (point - 0x10000) / 1024 - 0xD800) * 1024
        + (0xDC00 + (point - 0x10000) % 1024 - 0xDC00) = point := by omega
    rw [lead, trail, Bool.true_and, if_pos rfl, unit _ (by omega), unit _ (by omega), value]

theorem points_js (literal : String) : points (js literal) = literal.toList.map Char.toNat := by
  unfold js
  induction literal.toList with
  | nil => rfl
  | cons character rest ih =>
    have valid := character.valid
    have small : character.toNat < 0x110000 := by
      rcases valid with low | high
      · exact Nat.lt_trans low (by decide)
      · exact high.2
    have paired : ¬ IsSurrogate character.toNat := by
      rintro ⟨low, high⟩
      rcases valid with below | above
      · exact absurd below (Nat.not_lt.mpr low)
      · exact absurd above.1 (Nat.not_lt.mpr high)
    rw [List.flatMap_cons, points_fromCodePoint _ small paired, ih, List.map_cons]

/-- Different literals are different texts. -/
theorem js_injective : Function.Injective js := by
  intro left right same
  have characters := congrArg points same
  rw [points_js, points_js] at characters
  have inject : Function.Injective Char.toNat := fun _ _ equal => Char.toNat_inj.mp equal
  exact String.toList_inj.mp (List.map_injective_iff.mpr inject characters)

/-- Literals are compared as strings. -/
@[simp]
theorem js_inj (left right : String) : js left = js right ↔ left = right := js_injective.eq_iff

theorem points_of_plain (text : Text) (plain : ∀ unit ∈ text, ¬ IsSurrogate unit.toNat) :
    points text = text.map UInt16.toNat := by
  fun_induction points text with
  | case1 => rfl
  | case2 unit => rfl
  | case3 lead trail rest pair ih =>
    have single := plain lead (by simp)
    rw [Bool.and_eq_true, isLead_iff] at pair
    unfold IsSurrogate at single
    omega
  | case4 lead trail rest single ih =>
    rw [ih fun unit unitIn => plain unit (List.mem_cons_of_mem _ unitIn)]
    rfl

theorem plain_of_all (checked : (text.all fun unit => !decide (IsSurrogate unit.toNat)) = true) :
    ∀ unit ∈ text, ¬ IsSurrogate unit.toNat := by
  simpa using checked

theorem wellFormed_of_plain (plain : ∀ unit ∈ text, ¬ IsSurrogate unit.toNat) :
    WellFormed text := by
  intro point pointIn
  rw [points_of_plain text plain] at pointIn
  obtain ⟨unit, unitIn, rfl⟩ := List.mem_map.mp pointIn
  exact plain unit unitIn

theorem wellFormed_pair {lead trail : UInt16} {rest : Text}
    (pair : (isLead lead && isTrail trail) = true) (formed : WellFormed rest) :
    WellFormed (lead :: trail :: rest) := by
  intro point pointIn
  rw [points, if_pos pair] at pointIn
  rw [Bool.and_eq_true, isLead_iff, isTrail_iff] at pair
  rcases List.mem_cons.mp pointIn with head | later
  · unfold IsSurrogate
    omega
  · exact formed point later

/-- Texts compare as the values of their units do. -/
theorem map_toNat_lt (left right : Text) :
    left.map UInt16.toNat < right.map UInt16.toNat ↔ left < right := by
  induction left generalizing right with
  | nil => cases right <;> simp
  | cons unit left ih =>
    cases right with
    | nil => simp
    | cons other right =>
      rw [List.map_cons, List.map_cons, List.cons_lt_cons_iff, List.cons_lt_cons_iff, ih,
        UInt16.lt_iff_toNat_lt, UInt16.toNat_inj]

theorem points_le_points (leftPlain : ∀ unit ∈ left, ¬ IsSurrogate unit.toNat)
    (rightPlain : ∀ unit ∈ right, ¬ IsSurrogate unit.toNat) :
    points left ≤ points right ↔ left ≤ right := by
  rw [points_of_plain left leftPlain, points_of_plain right rightPlain, ← not_lt, ← not_lt,
    map_toNat_lt]

theorem points_append (leftFormed : WellFormed left) :
    points (left ++ right) = points left ++ points right := by
  unfold WellFormed at leftFormed
  fun_induction points left with
  | case1 => rfl
  | case2 unit =>
    have paired := leftFormed unit.toNat (by simp)
    have single : isLead unit = false := by
      rw [Bool.eq_false_iff, ne_eq, isLead_iff]
      unfold IsSurrogate at paired
      omega
    exact points_cons unit right single
  | case3 lead trail rest pair ih =>
    rw [List.cons_append, List.cons_append, points, if_pos pair, List.cons_append,
      ih fun point pointIn => leftFormed point (List.mem_cons_of_mem _ pointIn)]
  | case4 lead trail rest single ih =>
    rw [List.cons_append, List.cons_append, points, if_neg single, ← List.cons_append,
      ih fun point pointIn => leftFormed point (List.mem_cons_of_mem _ pointIn), List.cons_append]

/-- Well-formed texts may be joined. -/
theorem wellFormed_append (leftFormed : WellFormed left) (rightFormed : WellFormed right) :
    WellFormed (left ++ right) := by
  intro point pointIn
  rw [points_append leftFormed, List.mem_append] at pointIn
  exact pointIn.elim (leftFormed point) (rightFormed point)

end Points

section Bytes

variable {left text : Text} {value : ℕ} {values : List ℕ}

/-- Reading undoes writing, whatever bytes follow. -/
theorem decodePoint_encodePoint (point : ℕ) (small : point < 0x110000)
    (paired : ¬ IsSurrogate point) (rest : List UInt8) :
    decodePoint (encodePoint point ++ rest) = some (point, rest) := by
  have byte (value : ℕ) (fits : value < 256) : (UInt8.ofNat value).toNat = value := by
    simp [fits]
  have continues (value : ℕ) (low : 0x80 ≤ value) (high : value ≤ 0xBF) :
      isContinuation (UInt8.ofNat value) = true := by
    simp only [isContinuation, Bool.and_eq_true, decide_eq_true_eq, UInt8.le_iff_toNat_le]
    rw [byte value (by omega)]
    exact ⟨low, high⟩
  unfold encodePoint
  split
  · simp only [List.singleton_append, decodePoint]
    rw [byte point (by omega), if_pos (by omega)]
  split
  · simp only [List.cons_append, List.nil_append, decodePoint]
    rw [byte (0xC0 + point / 64) (by omega), byte (0x80 + point % 64) (by omega),
      if_neg (by omega), if_neg (by omega), if_pos (by omega),
      continues (0x80 + point % 64) (by omega) (by omega)]
    have value : (0xC0 + point / 64 - 0xC0) * 64 + (0x80 + point % 64 - 0x80) = point := by omega
    rw [value, if_pos (by simp; omega)]
  split
  · simp only [List.cons_append, List.nil_append, decodePoint]
    rw [byte (0xE0 + point / 4096) (by omega), byte (0x80 + point / 64 % 64) (by omega),
      byte (0x80 + point % 64) (by omega), if_neg (by omega), if_neg (by omega),
      if_neg (by omega), if_pos (by omega),
        continues (0x80 + point / 64 % 64) (by omega) (by omega),
      continues (0x80 + point % 64) (by omega) (by omega)]
    have value : (0xE0 + point / 4096 - 0xE0) * 4096 + (0x80 + point / 64 % 64 - 0x80) * 64
        + (0x80 + point % 64 - 0x80) = point := by omega
    rw [value, if_pos (by simp [paired]; omega)]
  · simp only [List.cons_append, List.nil_append, decodePoint]
    rw [byte (0xF0 + point / 262144) (by omega), byte (0x80 + point / 4096 % 64) (by omega),
      byte (0x80 + point / 64 % 64) (by omega), byte (0x80 + point % 64) (by omega),
      if_neg (by omega), if_neg (by omega), if_neg (by omega), if_neg (by omega),
      continues (0x80 + point / 4096 % 64) (by omega) (by omega),
      continues (0x80 + point / 64 % 64) (by omega) (by omega),
      continues (0x80 + point % 64) (by omega) (by omega)]
    have value : (0xF0 + point / 262144 - 0xF0) * 262144 + (0x80 + point / 4096 % 64 - 0x80) * 4096
        + (0x80 + point / 64 % 64 - 0x80) * 64 + (0x80 + point % 64 - 0x80) = point := by omega
    rw [value, if_pos (by simp; omega)]

/-- Where the points are scalars, their bytes determine them. -/
theorem flatMap_encodePoint_injective {left right : List ℕ}
    (leftSmall : ∀ point ∈ left, point < 0x110000 ∧ ¬ IsSurrogate point)
    (rightSmall : ∀ point ∈ right, point < 0x110000 ∧ ¬ IsSurrogate point)
    (same : left.flatMap encodePoint = right.flatMap encodePoint) : left = right := by
  induction left generalizing right with
  | nil =>
    cases right with
    | nil => rfl
    | cons point rest =>
      have head := rightSmall point (by simp)
      have read := decodePoint_encodePoint point head.1 head.2 (rest.flatMap encodePoint)
      rw [← List.flatMap_cons, ← same] at read
      cases read
  | cons point rest ih =>
    have head := leftSmall point (by simp)
    have read := decodePoint_encodePoint point head.1 head.2 (rest.flatMap encodePoint)
    rw [← List.flatMap_cons, same] at read
    cases right with
    | nil => cases read
    | cons other others =>
      have second := rightSmall other (by simp)
      rw [List.flatMap_cons, decodePoint_encodePoint other second.1 second.2] at read
      simp only [Option.some.injEq, Prod.mk.injEq] at read
      obtain ⟨rfl, tails⟩ := read
      rw [ih (fun p pIn => leftSmall p (List.mem_cons_of_mem _ pIn))
        (fun p pIn => rightSmall p (List.mem_cons_of_mem _ pIn)) tails.symm]

theorem encodeUtf8_injective {right : Text} (leftFormed : WellFormed left)
    (rightFormed : WellFormed right) (same : encodeUtf8 left = encodeUtf8 right) :
    left = right := by
  have bytes (text : Text) (formed : WellFormed text) :
      encodeUtf8 text = (points text).flatMap encodePoint := by
    refine List.flatMap_congr fun point pointIn => ?_
    rw [scalar, if_neg (formed point pointIn)]
  rw [bytes left leftFormed, bytes right rightFormed] at same
  exact points_injective (flatMap_encodePoint_injective
    (fun point pointIn => ⟨points_lt left point pointIn, leftFormed point pointIn⟩)
    (fun point pointIn => ⟨points_lt right point pointIn, rightFormed point pointIn⟩) same)

theorem mem_points_ascii (text : Text) (ascii : value < 0x80) :
    value ∈ points text ↔ UInt16.ofNat value ∈ text := by
  have own (unit : UInt16) : value = unit.toNat ↔ UInt16.ofNat value = unit := by
    constructor
    · intro same
      rw [same, UInt16.ofNat_toNat]
    · intro same
      rw [← same, UInt16.toNat_ofNat_of_lt' (show value < 65536 by omega)]
  fun_induction points text with
  | case1 => simp
  | case2 unit => simp [own]
  | case3 lead trail rest pair ih =>
    rw [Bool.and_eq_true, isLead_iff, isTrail_iff] at pair
    have notLead : UInt16.ofNat value ≠ lead := fun same => by
      have values := (own lead).mpr same
      omega
    have notTrail : UInt16.ofNat value ≠ trail := fun same => by
      have values := (own trail).mpr same
      omega
    have notPair : value ≠ 0x10000 + (lead.toNat - 0xD800) * 1024 +
      (trail.toNat - 0xDC00) := by omega
    simp [notLead, notTrail, notPair, ih]
  | case4 lead trail rest single ih =>
    have here := own lead
    simp only [List.mem_cons, here] at ih ⊢
    exact or_congr Iff.rfl ih

/-- The bytes below `0x80` spell their own points only. -/
theorem mem_encodePoint_ascii {point : ℕ} (small : point < 0x110000) (ascii : value < 0x80) :
    UInt8.ofNat value ∈ encodePoint point ↔ value = point := by
  have byte (other : ℕ) (fits : other < 256) : UInt8.ofNat value = UInt8.ofNat other ↔
      value = other := by
    constructor
    · intro same
      have values := congrArg UInt8.toNat same
      rwa [UInt8.toNat_ofNat_of_lt' (show value < 256 by omega), UInt8.toNat_ofNat_of_lt' fits]
        at values
    · intro same
      rw [same]
  unfold encodePoint
  split
  · rw [List.mem_singleton, byte point (by omega)]
  split
  · simp only [List.mem_cons, List.not_mem_nil, or_false]
    rw [byte _ (by omega), byte _ (by omega)]
    omega
  split
  · simp only [List.mem_cons, List.not_mem_nil, or_false]
    rw [byte _ (by omega), byte _ (by omega), byte _ (by omega)]
    omega
  · simp only [List.mem_cons, List.not_mem_nil, or_false]
    rw [byte _ (by omega), byte _ (by omega), byte _ (by omega), byte _ (by omega)]
    omega

theorem mem_encodeUtf8_ascii (text : Text) (ascii : value < 0x80) :
    UInt8.ofNat value ∈ encodeUtf8 text ↔ UInt16.ofNat value ∈ text := by
  rw [← mem_points_ascii text ascii, encodeUtf8, List.mem_flatMap]
  have scalarSmall : ∀ point ∈ points text, scalar point < 0x110000 := by
    intro point pointIn
    have bound := points_lt text point pointIn
    rw [scalar]
    split
    · decide
    · exact bound
  have scalarSame : ∀ point, value = scalar point ↔ value = point := by
    intro point
    rw [scalar]
    split
    · rename_i surrogate
      unfold IsSurrogate at surrogate
      omega
    · rfl
  constructor
  · intro found
    obtain ⟨point, pointIn, byteIn⟩ := found
    rw [mem_encodePoint_ascii (scalarSmall point pointIn) ascii, scalarSame] at byteIn
    rw [byteIn]
    exact pointIn
  · intro found
    refine ⟨value, found, ?_⟩
    rw [mem_encodePoint_ascii (scalarSmall value found) ascii, scalarSame]

/-- Only the empty text has no bytes. -/
theorem encodeUtf8_eq_nil (text : Text) : encodeUtf8 text = [] ↔ text = [] := by
  constructor
  · intro empty
    rw [encodeUtf8, List.flatMap_eq_nil_iff] at empty
    have none : points text = [] := by
      apply List.eq_nil_iff_forall_not_mem.mpr
      intro point pointIn
      have nothing := empty point pointIn
      unfold encodePoint at nothing
      split_ifs at nothing
    have back := flatMap_points text
    rw [none] at back
    exact back.symm
  · intro empty
    rw [empty]
    rfl

theorem encodeUtf8_cons_ascii (ascii : value < 0x80) (rest : Text) :
    encodeUtf8 (UInt16.ofNat value :: rest) = UInt8.ofNat value :: encodeUtf8 rest := by
  have unit : (UInt16.ofNat value).toNat = value :=
    UInt16.toNat_ofNat_of_lt' (show value < 65536 by omega)
  have single : isLead (UInt16.ofNat value) = false := by
    rw [Bool.eq_false_iff]
    intro lead
    rw [isLead_iff, unit] at lead
    omega
  have plain : ¬ IsSurrogate value := by
    unfold IsSurrogate
    omega
  rw [encodeUtf8, points_cons _ _ single, List.flatMap_cons, unit, scalar, if_neg plain,
    encodePoint, if_pos (by omega), List.singleton_append]
  rfl

theorem length_points_le (text : Text) : (points text).length ≤ text.length := by
  fun_induction points text with
  | case1 => simp
  | case2 unit => simp
  | case3 lead trail rest pair ih =>
    simp only [List.length_cons]
    omega
  | case4 lead trail rest single ih =>
    simp only [List.length_cons] at ih ⊢
    omega

/-- A code point has at most four bytes. -/
theorem length_encodePoint_le (point : ℕ) : (encodePoint point).length ≤ 4 := by
  unfold encodePoint
  split_ifs <;> simp

/-- A text has at most four bytes for each of its units. -/
theorem length_encodeUtf8_le (text : Text) : (encodeUtf8 text).length ≤ 4 * text.length := by
  have each (points : List ℕ) :
      (points.flatMap fun point => encodePoint (scalar point)).length ≤ 4 * points.length := by
    induction points with
    | nil => simp
    | cons point rest ih =>
      have first := length_encodePoint_le (scalar point)
      rw [List.flatMap_cons, List.length_append, List.length_cons]
      omega
  have units := length_points_le text
  have bytes := each (points text)
  rw [encodeUtf8]
  omega

theorem encodeUtf8_of_wellFormed (formed : WellFormed text) :
    encodeUtf8 text = (points text).flatMap encodePoint := by
  refine List.flatMap_congr fun point pointIn => ?_
  rw [scalar, if_neg (formed point pointIn)]

theorem encodeUtf8_append (formed : WellFormed left) (right : Text) :
    encodeUtf8 (left ++ right) = encodeUtf8 left ++ encodeUtf8 right := by
  rw [encodeUtf8, points_append formed, List.flatMap_append]
  rfl

theorem encodeUtf8_of_ascii (ascii : ∀ unit ∈ text, unit.toNat < 0x80) :
    encodeUtf8 text = text.map fun unit => UInt8.ofNat unit.toNat := by
  have plain : ∀ unit ∈ text, ¬ IsSurrogate unit.toNat := fun unit unitIn => by
    have small := ascii unit unitIn
    unfold IsSurrogate
    omega
  rw [encodeUtf8_of_wellFormed (wellFormed_of_plain plain), points_of_plain text plain,
    List.flatMap_map]
  induction text with
  | nil => rfl
  | cons unit rest ih =>
    have small := ascii unit List.mem_cons_self
    have first : encodePoint unit.toNat = [UInt8.ofNat unit.toNat] := if_pos (by omega)
    rw [List.flatMap_cons, List.map_cons, first, List.singleton_append,
      ih (fun other otherIn => ascii other (List.mem_cons_of_mem _ otherIn))
        fun other otherIn => plain other (List.mem_cons_of_mem _ otherIn)]

/-- Every code point has bytes. -/
theorem encodePoint_ne_nil (point : ℕ) : encodePoint point ≠ [] := by
  unfold encodePoint
  split_ifs <;> exact List.cons_ne_nil _ _

section

variable (scalars : ∀ point ∈ values, point < 0x110000 ∧ ¬ IsSurrogate point)

include scalars

theorem decodePoints_flatMap
    {fuel : ℕ} (enough : (values.flatMap encodePoint).length ≤ fuel) :
    decodePoints fuel (values.flatMap encodePoint) = some values := by
  induction values generalizing fuel with
  | nil =>
    cases fuel with
    | zero => rfl
    | succ fuel => rfl
  | cons point rest ih =>
    have here := scalars point List.mem_cons_self
    rw [List.flatMap_cons] at enough ⊢
    have some' : 0 < (encodePoint point).length :=
      List.length_pos_iff.mpr (encodePoint_ne_nil point)
    rw [List.length_append] at enough
    obtain ⟨fuel, rfl⟩ : ∃ less, fuel = less + 1 := ⟨fuel - 1, by omega⟩
    have read := decodePoint_encodePoint point here.1 here.2 (rest.flatMap encodePoint)
    have later : decodePoints fuel (rest.flatMap encodePoint) = some rest :=
      ih (fun other otherIn => scalars other (List.mem_cons_of_mem _ otherIn)) (by omega)
    cases whole : encodePoint point ++ rest.flatMap encodePoint with
    | nil => exact absurd (List.append_eq_nil_iff.mp whole).1 (encodePoint_ne_nil point)
    | cons byte bytes =>
      rw [whole] at read
      simp only [decodePoints, read, later, Option.bind_eq_bind, Option.bind_some]

theorem byteOrderMark_prefix :
    byteOrderMark <+: values.flatMap encodePoint ↔ values.head? = some 0xFEFF := by
  have mark : encodePoint 0xFEFF = byteOrderMark := by decide
  cases values with
  | nil =>
    refine ⟨fun opens => ?_, fun head => by cases head⟩
    have short := opens.length_le
    cases short
  | cons point rest =>
    have here := scalars point List.mem_cons_self
    rw [List.flatMap_cons, List.head?_cons, Option.some.injEq]
    constructor
    · rintro ⟨more, same⟩
      have read := decodePoint_encodePoint point here.1 here.2 (rest.flatMap encodePoint)
      have other := decodePoint_encodePoint 0xFEFF (by decide) (by decide) more
      rw [mark, same, read, Option.some.injEq, Prod.mk.injEq] at other
      exact other.1
    · intro same
      rw [same, mark]
      exact List.prefix_append _ _

end

def withoutMark (text : Text) : Text := if text.head? = some 0xFEFF then text.tail else text

theorem decodeUtf8_encodeUtf8 (formed : WellFormed text) :
    decodeUtf8 (encodeUtf8 text) = some (withoutMark text) := by
  have scalars : ∀ point ∈ points text, point < 0x110000 ∧ ¬ IsSurrogate point :=
    fun point pointIn => ⟨points_lt text point pointIn, formed point pointIn⟩
  have opens := byteOrderMark_prefix scalars
  rw [encodeUtf8_of_wellFormed formed, decodeUtf8, withoutMark]
  by_cases marked : text.head? = some 0xFEFF
  · cases text with
    | nil => cases marked
    | cons unit rest =>
      have first : unit = 0xFEFF := Option.some.inj marked
      have single : points (unit :: rest) = 0xFEFF :: points rest := by
        rw [first]
        exact points_cons 0xFEFF rest (by decide)
      have mark : encodePoint 0xFEFF = byteOrderMark := by decide
      rw [single] at opens scalars ⊢
      rw [if_pos (opens.mpr rfl), if_pos marked, List.flatMap_cons, mark]
      simp only [List.tail_cons]
      have left : (byteOrderMark ++ (points rest).flatMap encodePoint).drop 3 =
          (points rest).flatMap encodePoint := rfl
      rw [left, decodePoints_flatMap (fun point pointIn =>
        scalars point (List.mem_cons_of_mem _ pointIn)) le_rfl, Option.map_some, flatMap_points]
  · have unmarked : ¬ byteOrderMark <+: (points text).flatMap encodePoint := by
      rw [opens]
      intro head
      apply marked
      cases text with
      | nil => cases head
      | cons unit rest =>
        have value : unit.toNat = 0xFEFF := by
          cases rest with
          | nil => exact Option.some.inj head
          | cons next rest =>
            rw [points] at head
            split at head
            · rename_i pair
              rw [Bool.and_eq_true, isLead_iff, isTrail_iff] at pair
              have sum := Option.some.inj head
              omega
            · exact Option.some.inj head
        have same : unit = 0xFEFF := UInt16.toNat_inj.mp value
        rw [List.head?_cons, same]
    rw [if_neg unmarked, if_neg marked, decodePoints_flatMap scalars le_rfl, Option.map_some,
      flatMap_points]

end Bytes

/-! ## Reading UTF-8 that may be broken

A reader that never fails puts a replacement character in the place of each part that is no code
point.
-/

/-- A byte within bounds. -/
def isWithin (low high : UInt8) (byte : Option UInt8) : Bool :=
  match byte with
  | none => false
  | some byte => low ≤ byte && byte ≤ high

/-- The second bytes that may stand behind the first byte of a code point of three or four. -/
def secondBounds (first : UInt8) : UInt8 × UInt8 :=
  if first = 0xE0 then (0xA0, 0xBF)
  else if first = 0xED then (0x80, 0x9F)
  else if first = 0xF0 then (0x90, 0xBF)
  else if first = 0xF4 then (0x80, 0x8F)
  else (0x80, 0xBF)

/-- The number of bytes that one replacement character stands for. -/
def brokenLength (bytes : List UInt8) : ℕ :=
  match bytes with
  | [] => 0
  | first :: rest =>
    let (low, high) := secondBounds first
    if 0xE0 ≤ first && first ≤ 0xF4 && isWithin low high rest[0]? then
      if 0xF0 ≤ first && isWithin 0x80 0xBF rest[1]? then 3 else 2
    else 1

def lossyPoints : ℕ → List UInt8 → List ℕ
  | _, [] => []
  | 0, _ :: _ => []
  | fuel + 1, bytes =>
    match decodePoint bytes with
    | some (point, rest) => point :: lossyPoints fuel rest
    | none => 0xFFFD :: lossyPoints fuel (bytes.drop (brokenLength bytes))

/-- Read a text from UTF-8 bytes that may be broken. -/
def decodeLossy (bytes : List UInt8) : Text :=
  (lossyPoints bytes.length bytes).flatMap fromCodePoint

/-- Bytes that are no code point are replaced: a lone continuation, a cut code point, a
surrogate. -/
example : decodeLossy [0x80, 0x61, 0xE2, 0x82, 0x62, 0xED, 0xA0, 0x80] =
    [0xFFFD, 0x61, 0xFFFD, 0x62, 0xFFFD, 0xFFFD, 0xFFFD] := by decide

end Holonomy.Foundation
