import Holonomy.Images.NewcProgress

/-!
# What is read from a written archive

A record takes a multiple of four bytes, and its header and its data begin at multiples of four
where the record does. As long as positions fit 31 bits, the reader takes off one record after the
other.
-/

namespace Holonomy.Images

open Foundation

section Alignment

variable {position : ℕ}

theorem align4_of_small (small : position + 3 < 2147483648) :
    align4 position = ((position + 3) / 4 * 4 : ℕ) := by
  unfold align4 toInt32
  omega

theorem align4_le (position : ℤ) : align4 position ≤ 2147483644 := by
  unfold align4 toInt32
  omega

theorem zeros_align {gap : List UInt8} (filled : zeros (align4 position - position) = some gap) :
    position + 3 < 2147483648 ∧ gap = List.replicate ((position + 3) / 4 * 4 - position) 0 := by
  unfold zeros at filled
  split at filled
  · rename_i enough
    have bound := align4_le position
    have small : position + 3 < 2147483648 := by omega
    rw [align4_of_small small, Option.some.injEq] at filled
    refine ⟨small, ?_⟩
    rw [← filled]
    congr 1
    omega
  · cases filled

end Alignment

section Fields

theorem isSome_hexValue_hex (value : ℕ) : ∀ unit ∈ hex value, (hexValue unit).isSome = true :=
  isSome_hexValue_padStart 8 value

theorem length_hex {value : ℕ} (small : value < 16 ^ 8) : (hex value).length = 8 :=
  length_padStart 48 (length_toHex_le (by decide) small)

theorem ascii_hex (value : ℕ) : ∀ unit ∈ hex value, unit.toNat < 0x80 :=
  fun unit listed => (plain_of_isSome (isSome_hexValue_hex value unit listed)).1

theorem decodeUtf8_ascii {text : Text} (ascii : ∀ unit ∈ text, unit.toNat < 0x80) :
    decodeUtf8 (text.map fun unit => UInt8.ofNat unit.toNat) = some text := by
  have plain : ∀ unit ∈ text, ¬ IsSurrogate unit.toNat := fun unit unitIn => by
    have small := ascii unit unitIn
    unfold IsSurrogate
    omega
  have unmarked : ¬ text.head? = some 0xFEFF := by
    intro marked
    have small := ascii 0xFEFF (List.mem_of_head? marked)
    exact absurd small (by decide)
  have decoded := decodeUtf8_encodeUtf8 (wellFormed_of_plain plain)
  rwa [encodeUtf8_of_ascii ascii, withoutMark, if_neg unmarked] at decoded

end Fields

section Slices

variable {before middle after bytes : List UInt8}

variable {offset : ℤ}

theorem slice_middle {start stop : ℤ} (whole : bytes = before ++ middle ++ after)
    (starts : start = before.length) (stops : stop = before.length + middle.length) :
    slice bytes start stop = middle := by
  have first : position bytes start = before.length := by
    rw [position, if_neg (by omega), starts, Int.toNat_natCast, whole]
    simp only [List.length_append]
    omega
  have last : position bytes stop = before.length + middle.length := by
    rw [position, if_neg (by omega), stops, whole]
    simp only [List.length_append]
    omega
  rw [slice, first, last, whole, List.append_assoc, List.drop_left, Nat.add_sub_cancel_left,
    List.take_left]

theorem byteAt_middle {byte : UInt8} (whole : bytes = before ++ byte :: after)
    (here : offset = before.length) : byteAt bytes offset = some byte := by
  rw [byteAt, if_neg (by omega), here, Int.toNat_natCast, whole, List.getElem?_append_right le_rfl,
    Nat.sub_self]
  rfl

theorem field_middle {value : ℕ} (small : value < 16 ^ 8)
    (whole : bytes = before ++ (hex value).map (fun unit => UInt8.ofNat unit.toNat) ++ after)
    (starts : offset = before.length) : field bytes offset = some (some (value : ℤ)) := by
  have length : ((hex value).map fun unit => UInt8.ofNat unit.toNat).length = 8 := by
    rw [List.length_map, length_hex small]
  have read := slice_middle whole starts (show offset + 8 = _ by omega)
  rw [field, read, decodeUtf8_ascii (ascii_hex value), Option.map_some, hex,
    parseHex_padStart (by decide) small]

end Slices

structure Written (value : NewcEntryV1) (inode links : ℕ) (written head : List UInt8) : Prop where
  whole : ∃ tail, written = head ++ value.bytes ++ List.replicate tail 0
  name : ∃ gap, head = encodeUtf8 (header inode value.mode links value.bytes.length
    (encodeUtf8 (value.name ++ [0])).length) ++ encodeUtf8 (value.name ++ [0]) ++
      List.replicate gap 0
  headAligned : 4 ∣ head.length
  aligned : 4 ∣ written.length
  headShort : head.length = ((encodeUtf8 (header inode value.mode links value.bytes.length
    (encodeUtf8 (value.name ++ [0])).length)).length +
      (encodeUtf8 (value.name ++ [0])).length + 3) / 4 * 4
  length : written.length = head.length + (value.bytes.length + 3) / 4 * 4
  dataShort : value.bytes.length + 3 < 2147483648
  nameShort : (encodeUtf8 (value.name ++ [0])).length + 3 < 2147483648

variable {inode links : ℕ}

theorem written_of_entry {value : NewcEntryV1} {written : List UInt8}
    (created : entry value inode links = some written) :
    ∃ head, Written value inode links written head := by
  unfold entry at created
  simp only [Option.bind_eq_bind, Option.bind_eq_some_iff] at created
  obtain ⟨gap, filled, tail, filledTail, same⟩ := created
  rw [Option.some.injEq] at same
  rw [sub_sub, ← Nat.cast_add] at filled
  obtain ⟨headSmall, gapSame⟩ := zeros_align filled
  obtain ⟨dataSmall, tailSame⟩ := zeros_align filledTail
  refine ⟨_, ⟨⟨_, by rw [← same, tailSame]⟩, ⟨_, by rw [gapSame]⟩, ?_, ?_, ?_, ?_, dataSmall,
    by omega⟩⟩
  · rw [gapSame]
    simp only [List.length_append, List.length_replicate]
    omega
  · rw [← same, gapSame, tailSame]
    simp only [List.length_append, List.length_replicate]
    omega
  · rw [gapSame]
    simp only [List.length_append, List.length_replicate]
    omega
  · rw [← same, tailSame]
    simp only [List.length_append, List.length_replicate]
    omega

theorem encodeUtf8_header (inode mode links size nameSize : ℕ) :
    encodeUtf8 (header inode mode links size nameSize) =
      (header inode mode links size nameSize).map fun unit => UInt8.ofNat unit.toNat := by
  refine encodeUtf8_of_ascii fun unit listed => ?_
  have magic : ∀ unit ∈ js "070701", unit.toNat < 0x80 := by
    have all : (js "070701").all (fun unit => unit.toNat < 0x80) = true := by rfl
    simpa using all
  unfold header at listed
  obtain ⟨part, partIn, unitIn⟩ := List.mem_flatten.mp listed
  rcases List.mem_cons.mp partIn with first | field
  · exact magic unit (first ▸ unitIn)
  · have digits : ∃ value, part = hex value := by
      simp only [List.mem_cons, List.not_mem_nil, or_false] at field
      rcases field with same | same | same | same | same | same | same | same | same | same | same |
        same | same <;> exact ⟨_, same⟩
    obtain ⟨value, same⟩ := digits
    exact ascii_hex value unit (same ▸ unitIn)

theorem length_header {mode size nameSize : ℕ} (inodeSmall : inode < 16 ^ 8)
    (modeSmall : mode < 16 ^ 8) (linksSmall : links < 16 ^ 8) (sizeSmall : size < 16 ^ 8)
    (nameSmall : nameSize < 16 ^ 8) :
    (encodeUtf8 (header inode mode links size nameSize)).length = 110 := by
  have zero : (hex 0).length = 8 := length_hex (by decide)
  have magic : (js "070701").length = 6 := by rfl
  rw [encodeUtf8_header, List.length_map, header]
  simp only [List.flatten_cons, List.flatten_nil, List.length_append, List.length_nil, zero, magic,
    length_hex inodeSmall, length_hex modeSmall, length_hex linksSmall, length_hex sizeSmall,
    length_hex nameSmall]

section Record

variable {value : NewcEntryV1} {inode links : ℕ} {written head before after : List UInt8}

/-- The fields that fit their places. -/
structure Fits (value : NewcEntryV1) (inode links : ℕ) : Prop where
  inode : inode < 16 ^ 8
  mode : value.mode < 16 ^ 8
  links : links < 16 ^ 8

variable {name : Text}

theorem Written.atHeader (wrote : Written value inode links written head)
    (before after : List UInt8) :
    ∃ rest, before ++ written ++ after = before ++
      (header inode value.mode links value.bytes.length
        (encodeUtf8 (value.name ++ [0])).length).map (fun unit => UInt8.ofNat unit.toNat) ++
      rest := by
  obtain ⟨tail, whole⟩ := wrote.whole
  obtain ⟨gap, name⟩ := wrote.name
  refine ⟨encodeUtf8 (value.name ++ [0]) ++ List.replicate gap 0 ++ value.bytes ++
    List.replicate tail 0 ++ after, ?_⟩
  rw [whole, name, encodeUtf8_header]
  simp only [List.append_assoc]

theorem Written.atField (wrote : Written value inode links written head)
    (before after : List UInt8) {number : ℕ} (small : number < 16 ^ 8) (front back : Text)
    (parts : header inode value.mode links value.bytes.length
      (encodeUtf8 (value.name ++ [0])).length = front ++ hex number ++ back) :
    field (before ++ written ++ after) (before.length + front.length) =
      some (some (number : ℤ)) := by
  obtain ⟨rest, whole⟩ := wrote.atHeader before after
  rw [parts, List.map_append, List.map_append] at whole
  have arranged : before ++ written ++ after =
      (before ++ front.map fun unit => UInt8.ofNat unit.toNat) ++
        (hex number).map (fun unit => UInt8.ofNat unit.toNat) ++
        ((back.map fun unit => UInt8.ofNat unit.toNat) ++ rest) := by
    rw [whole]
    simp only [List.append_assoc]
  refine field_middle small arranged ?_
  rw [List.length_append, List.length_map]
  exact (Nat.cast_add _ _).symm

theorem encodeUtf8_name (formed : WellFormed name) :
    encodeUtf8 (name ++ [0]) = encodeUtf8 name ++ [0] := by
  rw [encodeUtf8_append formed]
  rfl

theorem readRecord_of_reads {bytes : List UInt8} {offset mode size nameSize : ℤ} {magic : Text}
    (magicRead : decodeUtf8 (slice bytes offset (offset + 6)) = some magic)
    (isMagic : magic = js "070701") (modeRead : field bytes (offset + 14) = some (some mode))
    (sizeRead : field bytes (offset + 54) = some (some size))
    (nameSizeRead : field bytes (offset + 94) = some (some nameSize)) (positive : 0 < nameSize)
    (inside : offset + 110 + nameSize ≤ bytes.length)
    (ended : byteAt bytes (offset + 110 + nameSize - 1) = some 0)
    (nameRead : decodeUtf8 (slice bytes (offset + 110) (offset + 110 + nameSize - 1)) = some name) :
    readRecord bytes offset =
      (if align4 (offset + 110 + nameSize) + size > bytes.length then none
      else if name = trailerName then some none
      else some (some (⟨slice bytes (align4 (offset + 110 + nameSize))
        (align4 (offset + 110 + nameSize) + size), some mode, name⟩,
        align4 (align4 (offset + 110 + nameSize) + size)))) := by
  have fine : ¬ (magic ≠ js "070701" ∨ nameSize ≤ 0) := by
    rintro (other | none)
    · exact other isMagic
    · omega
  have whole : ¬ (offset + 110 + nameSize > bytes.length ∨
      byteAt bytes (offset + 110 + nameSize - 1) ≠ some 0) := by
    rintro (beyond | other)
    · omega
    · exact other ended
  rw [readRecord]
  simp only [magicRead, modeRead, sizeRead, nameSizeRead, nameRead, Option.bind_eq_bind,
    Option.bind_some, if_neg fine, if_neg whole]

section

variable (wrote : Written value inode links written head)

include wrote

theorem Written.read
    (before after : List UInt8) (fits : Fits value inode links) (formed : WellFormed value.name) :
    readRecord (before ++ written ++ after) before.length =
      (let dataStart := align4 (before.length + 110 + (encodeUtf8 (value.name ++ [0])).length)
      if dataStart + value.bytes.length > (before ++ written ++ after).length then none
      else if withoutMark value.name = trailerName then some none
      else some (some (⟨slice (before ++ written ++ after) dataStart
        (dataStart + value.bytes.length), some (value.mode : ℤ), withoutMark value.name⟩,
        align4 (dataStart + value.bytes.length)))) := by
  have sizeSmall : value.bytes.length < 16 ^ 8 := by
    have short := wrote.dataShort
    omega
  have nameSmall : (encodeUtf8 (value.name ++ [0])).length < 16 ^ 8 := by
    have short := wrote.nameShort
    omega
  have zero : (hex 0).length = 8 := length_hex (by decide)
  have six : (js "070701").length = 6 := by rfl
  have modeRead : field (before ++ written ++ after) (before.length + 14) =
      some (some (value.mode : ℤ)) := by
    have read := wrote.atField before after fits.mode (js "070701" ++ hex inode) _
      (by simp only [header, List.flatten_cons, List.append_assoc]; rfl)
    simpa only [List.length_append, six, length_hex fits.inode, Nat.reduceAdd, Nat.cast_ofNat]
      using read
  have sizeRead : field (before ++ written ++ after) (before.length + 54) =
      some (some (value.bytes.length : ℤ)) := by
    have read := wrote.atField before after sizeSmall
      (js "070701" ++ hex inode ++ hex value.mode ++ hex 0 ++ hex 0 ++ hex links ++ hex 0) _
      (by simp only [header, List.flatten_cons, List.append_assoc]; rfl)
    simpa only [List.length_append, six, length_hex fits.inode, length_hex fits.mode, zero,
      length_hex fits.links, Nat.reduceAdd, Nat.cast_ofNat] using read
  have nameSizeRead : field (before ++ written ++ after) (before.length + 94) =
      some (some ((encodeUtf8 (value.name ++ [0])).length : ℤ)) := by
    have read := wrote.atField before after nameSmall
      (js "070701" ++ hex inode ++ hex value.mode ++ hex 0 ++ hex 0 ++ hex links ++ hex 0 ++
        hex value.bytes.length ++ hex 0 ++ hex 0 ++ hex 0 ++ hex 0) _
      (by simp only [header, List.flatten_cons, List.append_assoc]; rfl)
    simpa only [List.length_append, six, length_hex fits.inode, length_hex fits.mode, zero,
      length_hex fits.links, length_hex sizeSmall, Nat.reduceAdd, Nat.cast_ofNat] using read
  obtain ⟨rest, whole⟩ := wrote.atHeader before after
  have magicRead : decodeUtf8 (slice (before ++ written ++ after) before.length
      (before.length + 6)) = some (js "070701") := by
    have ascii : ∀ unit ∈ js "070701", unit.toNat < 0x80 := by
      have all : (js "070701").all (fun unit => unit.toNat < 0x80) = true := by rfl
      simpa using all
    have parts : before ++ written ++ after =
        before ++ (js "070701").map (fun unit => UInt8.ofNat unit.toNat) ++
        (([hex inode, hex value.mode, hex 0, hex 0, hex links, hex 0, hex value.bytes.length, hex 0,
          hex 0, hex 0, hex 0, hex (encodeUtf8 (value.name ++ [0])).length, hex 0].flatten.map
            fun unit => UInt8.ofNat unit.toNat) ++ rest) := by
      rw [whole, header, List.flatten_cons, List.map_append]
      simp only [List.append_assoc]
    have read := slice_middle parts rfl (show (before.length : ℤ) + 6 = _ by
      rw [List.length_map, six]
      rfl)
    rw [read, decodeUtf8_ascii ascii]
  have headLength : (encodeUtf8 (header inode value.mode links value.bytes.length
      (encodeUtf8 (value.name ++ [0])).length)).length = 110 :=
    length_header fits.inode fits.mode fits.links sizeSmall nameSmall
  have nameBytes := encodeUtf8_name formed
  have nameLength : (encodeUtf8 (value.name ++ [0])).length =
      (encodeUtf8 value.name).length + 1 := by
    rw [nameBytes, List.length_append]
    rfl
  obtain ⟨tail, data⟩ := wrote.whole
  obtain ⟨gap, named⟩ := wrote.name
  have parts : before ++ written ++ after =
      (before ++ encodeUtf8 (header inode value.mode links value.bytes.length
        (encodeUtf8 (value.name ++ [0])).length)) ++ encodeUtf8 value.name ++
        0 :: (List.replicate gap 0 ++ value.bytes ++ List.replicate tail 0 ++ after) := by
    rw [data, named, nameBytes]
    simp only [List.append_assoc, List.cons_append, List.nil_append]
  have nameRead : slice (before ++ written ++ after) (before.length + 110)
      (before.length + 110 + (encodeUtf8 (value.name ++ [0])).length - 1) =
      encodeUtf8 value.name := by
    refine slice_middle parts ?_ ?_
    · rw [List.length_append, headLength]
      exact (Nat.cast_add _ _).symm
    · rw [List.length_append, headLength, nameLength]
      push_cast
      ring
  have endRead : byteAt (before ++ written ++ after)
      (before.length + 110 + (encodeUtf8 (value.name ++ [0])).length - 1) = some 0 := by
    refine byteAt_middle parts ?_
    rw [List.length_append, List.length_append, headLength, nameLength]
    push_cast
    ring
  have inside : ¬ (before.length : ℤ) + 110 + (encodeUtf8 (value.name ++ [0])).length >
      (before ++ written ++ after).length := by
    have lengths := congrArg List.length parts
    simp only [List.length_append, headLength, List.length_cons] at lengths ⊢
    omega
  exact readRecord_of_reads magicRead rfl modeRead sizeRead nameSizeRead (by omega)
    (not_lt.mp inside)
    endRead (by rw [nameRead, decodeUtf8_encodeUtf8 formed])

theorem Written.readEntry
    (before after : List UInt8) (fits : Fits value inode links) (formed : WellFormed value.name)
    (aligned : 4 ∣ before.length) (small : before.length + written.length + 3 < 2147483648) :
    readRecord (before ++ written ++ after) before.length =
      some (if withoutMark value.name = trailerName then none
        else some (⟨value.bytes, some (value.mode : ℤ), withoutMark value.name⟩,
          ((before.length + written.length : ℕ) : ℤ))) := by
  obtain ⟨tail, whole⟩ := wrote.whole
  have headShort := wrote.headShort
  have written' := wrote.length
  have headLength := length_header fits.inode fits.mode fits.links
    (show value.bytes.length < 16 ^ 8 by have short := wrote.dataShort; omega)
    (show (encodeUtf8 (value.name ++ [0])).length < 16 ^ 8 by have short := wrote.nameShort; omega)
  rw [headLength] at headShort
  have start : align4 (before.length + 110 + (encodeUtf8 (value.name ++ [0])).length) =
      ((before ++ head).length : ℤ) := by
    have placed := align4_of_small (show before.length + 110 +
      (encodeUtf8 (value.name ++ [0])).length + 3 < 2147483648 by omega)
    push_cast at placed
    rw [placed, List.length_append]
    omega
  have stop : align4 ((before ++ head).length + value.bytes.length) =
      ((before.length + written.length : ℕ) : ℤ) := by
    have placed := align4_of_small (show (before ++ head).length +
      value.bytes.length + 3 < 2147483648 by rw [List.length_append]; omega)
    push_cast at placed
    rw [placed, List.length_append]
    have headAligned := wrote.headAligned
    omega
  have parts : before ++ written ++ after =
      (before ++ head) ++ value.bytes ++ (List.replicate tail 0 ++ after) := by
    rw [whole]
    simp only [List.append_assoc]
  have inside : ¬ ((before ++ head).length + value.bytes.length : ℤ) >
      (before ++ written ++ after).length := by
    rw [parts]
    simp only [List.length_append]
    omega
  rw [wrote.read before after fits formed]
  simp only [start, stop, if_neg inside, slice_middle parts rfl rfl]
  split
  · rfl
  · rfl

theorem Written.readTrailer
    (before : List UInt8) (fits : Fits value inode links) (named : value.name = trailerName)
    (empty : value.bytes.length = 0) (aligned : 4 ∣ before.length) :
    readRecord (before ++ written) before.length = some none := by
  have formed : WellFormed value.name := by
    have fine : WellFormed trailerName := by decide +kernel
    rw [named]
    exact fine
  have unmarked : withoutMark trailerName = trailerName := by rfl
  have headShort := wrote.headShort
  have headLength := length_header fits.inode fits.mode fits.links
    (show value.bytes.length < 16 ^ 8 by omega)
    (show (encodeUtf8 (value.name ++ [0])).length < 16 ^ 8 by have short := wrote.nameShort; omega)
  have written' := wrote.length
  rw [headLength] at headShort
  have inside : ¬ align4 (before.length + 110 + (encodeUtf8 (value.name ++ [0])).length) +
      value.bytes.length > (before ++ written).length := by
    rw [List.length_append]
    by_cases small : before.length + 110 + (encodeUtf8 (value.name ++ [0])).length + 3 < 2147483648
    · have placed := align4_of_small small
      push_cast at placed
      rw [placed]
      omega
    · have bound := align4_le (before.length + 110 + (encodeUtf8 (value.name ++ [0])).length)
      omega
  have read := wrote.read before [] fits formed
  rw [List.append_nil] at read
  rw [read]
  have marked : withoutMark value.name = trailerName := by rw [named, unmarked]
  simp only [if_neg inside, marked, if_true]

end

end Record

section Archive

def readBack (value : NewcEntryV1) : ParsedEntryV1 :=
  ⟨value.bytes, some (value.mode : ℤ), withoutMark value.name⟩

def parsed (value : NewcEntryV1) : ParsedEntryV1 := ⟨value.bytes, some (value.mode : ℤ), value.name⟩

def Kept (value : NewcEntryV1) : Prop := withoutMark value.name ≠ trailerName
  deriving Decidable

variable {values : List NewcEntryV1} {inode : ℕ} {output archive : List UInt8} {value : NewcEntryV1}
  {localeCompare : Precedence Text}

theorem records_length (created : records values inode = some output) :
    4 ∣ output.length ∧ values.length ≤ output.length := by
  induction values generalizing inode output with
  | nil =>
    cases created
    exact ⟨dvd_zero 4, le_rfl⟩
  | cons value rest ih =>
    simp only [records, Option.bind_eq_bind, Option.bind_eq_some_iff] at created
    obtain ⟨written, wrote, later, recorded, same⟩ := created
    rw [Option.some.injEq] at same
    obtain ⟨head, shape⟩ := written_of_entry wrote
    obtain ⟨aligned, many⟩ := ih recorded
    have writtenAligned := shape.aligned
    have length := shape.length
    have headShort := shape.headShort
    have some' : 0 < (encodeUtf8 (value.name ++ [0])).length := by
      rw [List.length_pos_iff, ne_eq, encodeUtf8_eq_nil]
      exact List.append_ne_nil_of_right_ne_nil _ (List.cons_ne_nil _ _)
    rw [← same, List.length_append, List.length_cons]
    omega

theorem records_split {front back : List NewcEntryV1}
    (created : records (front ++ value :: back) inode = some output) :
    ∃ start written rest, output = start ++ written ++ rest ∧ 4 ∣ start.length ∧
      entry value (inode + front.length) (if fileType value.mode = 0o040000 then 2 else 1) =
        some written := by
  induction front generalizing inode output with
  | nil =>
    simp only [List.nil_append, records, Option.bind_eq_bind, Option.bind_eq_some_iff] at created
    obtain ⟨written, wrote, later, recorded, same⟩ := created
    rw [Option.some.injEq] at same
    exact ⟨[], written, later, same.symm, dvd_zero 4, wrote⟩
  | cons first front ih =>
    simp only [List.cons_append, records, Option.bind_eq_bind, Option.bind_eq_some_iff] at created
    obtain ⟨written, wrote, later, recorded, same⟩ := created
    rw [Option.some.injEq] at same
    obtain ⟨start, mine, rest, whole, aligned, wroteMine⟩ := ih recorded
    obtain ⟨head, shape⟩ := written_of_entry wrote
    refine ⟨written ++ start, mine, rest, ?_, ?_, ?_⟩
    · rw [← same, whole]
      simp only [List.append_assoc]
    · have writtenAligned := shape.aligned
      rw [List.length_append]
      omega
    · have place : inode + (first :: front).length = inode + 1 + front.length := by
        rw [List.length_cons]
        omega
      rw [place]
      exact wroteMine

theorem parseFrom_records {trailer : List UInt8} (created : records values inode = some output)
    (few : inode + values.length < 16 ^ 8) (modes : ∀ value ∈ values, value.mode < 16 ^ 8)
    (formed : ∀ value ∈ values, WellFormed value.name) (before : List UInt8)
    (aligned : 4 ∣ before.length) (small : before.length + output.length + 3 < 2147483648)
    (ends : readRecord (before ++ output ++ trailer) (before.length + output.length) = some none)
    (room : 110 ≤ trailer.length) (found : List ParsedEntryV1) :
    parseFrom (before ++ output ++ trailer) (values.length + 1) before.length found =
      some (some (found ++ (values.takeWhile fun value => Kept value).map readBack)) := by
  induction values generalizing inode output before found with
  | nil =>
    cases created
    have inside : (before.length : ℤ) + 110 ≤ (before ++ [] ++ trailer).length := by
      simp only [List.length_append, List.length_nil]
      omega
    rw [List.length_nil, Nat.cast_zero, add_zero] at ends
    rw [parseFrom, if_pos inside, ends]
    simp
  | cons value rest ih =>
    simp only [records, Option.bind_eq_bind, Option.bind_eq_some_iff] at created
    obtain ⟨written, wrote, later, recorded, same⟩ := created
    rw [Option.some.injEq] at same
    obtain ⟨head, shape⟩ := written_of_entry wrote
    have links : (if fileType value.mode = 0o040000 then 2 else 1) < 16 ^ 8 := by
      split
      · norm_num
      · norm_num
    have fits : Fits value inode (if fileType value.mode = 0o040000 then 2 else 1) :=
      ⟨by rw [List.length_cons] at few; omega, modes value List.mem_cons_self, links⟩
    have whole : before ++ output ++ trailer = before ++ written ++ (later ++ trailer) := by
      rw [← same]
      simp only [List.append_assoc]
    have sizes : output.length = written.length + later.length := by
      rw [← same, List.length_append]
    have read := shape.readEntry before (later ++ trailer) fits
      (formed value List.mem_cons_self) aligned (by omega)
    have inside : (before.length : ℤ) + 110 ≤ (before ++ output ++ trailer).length := by
      simp only [List.length_append]
      omega
    rw [List.length_cons, parseFrom, if_pos inside, whole, read]
    by_cases kept : withoutMark value.name = trailerName
    · rw [if_pos kept, List.takeWhile_cons_of_neg
        (by rw [decide_eq_true_eq]; exact fun keeps => keeps kept)]
      simp
    · have writtenAligned := shape.aligned
      have onward := ih recorded (by rw [List.length_cons] at few; omega)
        (fun other otherIn => modes other (List.mem_cons_of_mem _ otherIn))
        (fun other otherIn => formed other (List.mem_cons_of_mem _ otherIn)) (before ++ written)
        (by rw [List.length_append]; omega) (by rw [List.length_append]; omega)
        (by
          rw [← same] at ends
          simp only [List.append_assoc, List.length_append, Nat.cast_add] at ends ⊢
          rwa [add_assoc])
        (found ++ [readBack value])
      have length : (before ++ written).length = before.length + written.length :=
        List.length_append
      rw [length, List.append_assoc (before ++ written)] at onward
      have keeps : Kept value := kept
      have taken : (value :: rest).takeWhile (fun value => decide (Kept value)) =
          value :: rest.takeWhile (fun value => decide (Kept value)) :=
        List.takeWhile_cons_of_pos (decide_eq_true keeps)
      rw [if_neg kept, taken, List.map_cons]
      simp only [List.append_assoc] at onward ⊢
      exact onward

/-- The entries of an archive, in its order. -/
def sorted (localeCompare : Precedence Text) (values : List NewcEntryV1) : List NewcEntryV1 :=
  (localeCompare.comap NewcEntryV1.name).sort values

def Aligned (entries : List NewcEntryV1) (archive : List UInt8) : Prop :=
  ∀ front value back, entries = front ++ value :: back → ∃ start head rest links,
    archive = start ++ head ++ value.bytes ++ rest ∧ 4 ∣ start.length ∧
      4 ∣ (start ++ head).length ∧
      encodeUtf8 (header (front.length + 1) value.mode links value.bytes.length
        (encodeUtf8 (value.name ++ [0])).length) <+: head

/-- The entries are read back as they were written, each once and in the archive's order, from
headers and data at multiples of four. -/
def RoundTrips (localeCompare : Precedence Text) (values : List NewcEntryV1)
    (archive : List UInt8) : Prop :=
  ParseNewcArchiveV1 archive (some ((sorted localeCompare values).map parsed)) ∧
    Aligned (sorted localeCompare values) archive

section

variable (created : createNewcArchiveFromEntriesV1 localeCompare values = some archive)

include created

theorem archive_of_create
    :
    (∀ value ∈ values, Valid value) ∧ ∃ output trailer,
      records (sorted localeCompare values) 1 = some output ∧
      entry ⟨[], 0, trailerName⟩ ((sorted localeCompare values).length + 1) 1 = some trailer ∧
      archive = output ++ trailer := by
  unfold createNewcArchiveFromEntriesV1 normalizeEntries at created
  simp only [Option.bind_eq_bind, Option.bind_eq_some_iff] at created
  obtain ⟨entries, normalized, output, recorded, trailer, wrote, same⟩ := created
  split at normalized
  · rename_i valid
    rw [Option.some.injEq] at normalized same
    rw [← normalized] at recorded wrote
    exact ⟨valid.1, output, trailer, recorded, wrote, same.symm⟩
  · cases normalized

theorem aligned_of_create
    :
    Aligned (sorted localeCompare values) archive := by
  obtain ⟨_, output, trailer, recorded, _, whole⟩ := archive_of_create created
  intro front value back entries
  rw [entries] at recorded
  obtain ⟨start, written, rest, same, startAligned, wrote⟩ := records_split recorded
  obtain ⟨head, shape⟩ := written_of_entry wrote
  obtain ⟨tail, data⟩ := shape.whole
  obtain ⟨gap, name⟩ := shape.name
  have headAligned := shape.headAligned
  refine ⟨start, head, List.replicate tail 0 ++ rest ++ trailer,
    if fileType value.mode = 0o040000 then 2 else 1, ?_, startAligned, ?_, ?_⟩
  · rw [whole, same, data]
    simp only [List.append_assoc]
  · rw [List.length_append]
    omega
  · rw [name, add_comm front.length, List.append_assoc]
    exact List.prefix_append _ _

end

theorem withoutMark_eq_iff (name : Text) : withoutMark name = name ↔ name.head? ≠ some 0xFEFF := by
  unfold withoutMark
  split
  · rename_i marked
    refine ⟨fun same => ?_, fun unmarked => absurd marked unmarked⟩
    have lengths := congrArg List.length same
    cases name with
    | nil => cases marked
    | cons unit rest =>
      rw [List.tail_cons, List.length_cons] at lengths
      omega
  · rename_i unmarked
    exact ⟨fun _ => unmarked, fun _ => rfl⟩

theorem readBack_eq_parsed (unmarked : value.name.head? ≠ some 0xFEFF) :
    readBack value = parsed value := by
  rw [readBack, parsed, (withoutMark_eq_iff value.name).mpr unmarked]

theorem kept_of_unmarked (valid : Valid value) (unmarked : value.name.head? ≠ some 0xFEFF) :
    Kept value := by
  unfold Kept
  rw [(withoutMark_eq_iff value.name).mpr unmarked]
  exact valid.2.2.1

theorem takeWhile_readBack_iff (valid : ∀ value ∈ values, Valid value) :
    (values.takeWhile fun value => Kept value).map readBack = values.map parsed ↔
      ∀ value ∈ values, value.name.head? ≠ some 0xFEFF := by
  refine ⟨fun same => ?_, fun unmarked => ?_⟩
  · have lengths := congrArg List.length same
    rw [List.length_map, List.length_map] at lengths
    have all : values.takeWhile (fun value => decide (Kept value)) = values :=
      (List.takeWhile_prefix _).eq_of_length lengths
    rw [all] at same
    intro value listed
    have here := List.map_inj_left.mp same value listed
    exact (withoutMark_eq_iff value.name).mp (congrArg ParsedEntryV1.name here)
  · have all : values.takeWhile (fun value => decide (Kept value)) = values :=
      List.takeWhile_eq_self_iff.mpr fun value listed =>
        decide_eq_true (kept_of_unmarked (valid value listed) (unmarked value listed))
    rw [all]
    exact List.map_congr_left fun value listed => readBack_eq_parsed (unmarked value listed)

theorem parse_of_create (formed : ∀ value ∈ values, WellFormed value.name)
    (created : createNewcArchiveFromEntriesV1 localeCompare values = some archive)
    (short : archive.length ≤ 2147483768) :
    ParseNewcArchiveV1 archive
      (some (((sorted localeCompare values).takeWhile fun value => Kept value).map readBack)) := by
  obtain ⟨valid, output, trailer, recorded, wroteTrailer, whole⟩ := archive_of_create created
  obtain ⟨outputAligned, many⟩ := records_length recorded
  obtain ⟨head, shape⟩ := written_of_entry wroteTrailer
  have member : ∀ value, value ∈ sorted localeCompare values ↔ value ∈ values :=
    fun value => (localeCompare.comap NewcEntryV1.name).mem_sort values value
  have total : archive.length = output.length + trailer.length := by
    rw [whole, List.length_append]
  have nameLength : (encodeUtf8 (trailerName ++ [0])).length = 11 := by
    decide +kernel
  have fits : Fits ⟨[], 0, trailerName⟩ ((sorted localeCompare values).length + 1) 1 := by
    refine ⟨?_, by norm_num, by norm_num⟩
    omega
  have headLength := length_header fits.inode fits.mode fits.links
    (show ([] : List UInt8).length < 16 ^ 8 by norm_num)
    (show (encodeUtf8 (trailerName ++ [0])).length < 16 ^ 8 by rw [nameLength]; norm_num)
  have headShort := shape.headShort
  have trailerLength := shape.length
  rw [headLength, nameLength] at headShort
  rw [headShort, List.length_nil] at trailerLength
  have ends : readRecord ([] ++ output ++ trailer) (([] : List UInt8).length + output.length) =
      some none := by
    have read := shape.readTrailer output fits rfl rfl outputAligned
    simpa using read
  have read := parseFrom_records recorded (by omega)
    (fun value listed => by
      have mode := (valid value ((member value).mp listed)).1
      omega)
    (fun value listed => formed value ((member value).mp listed)) [] (dvd_zero 4)
    (by rw [List.length_nil]; omega) ends (by omega) []
  rw [List.nil_append, List.nil_append, ← whole] at read
  exact ⟨_, read⟩

/-- Where no name opens with a byte order mark and the archive is so short that its positions fit 31
bits, all entries are read back; in a short archive only then. -/
theorem newc_roundTrips {localeCompare : Precedence Text} {values : List NewcEntryV1}
    {archive : List UInt8} (formed : ∀ value ∈ values, WellFormed value.name)
    (created : createNewcArchiveFromEntriesV1 localeCompare values = some archive)
    (short : archive.length ≤ 2147483768) :
    RoundTrips localeCompare values archive ↔
      ∀ value ∈ values, value.name.head? ≠ some 0xFEFF := by
  have read := parse_of_create formed created short
  have valid := (archive_of_create created).1
  have member : ∀ value, value ∈ sorted localeCompare values ↔ value ∈ values :=
    fun value => (localeCompare.comap NewcEntryV1.name).mem_sort values value
  have validSorted : ∀ value ∈ sorted localeCompare values, Valid value :=
    fun value listed => valid value ((member value).mp listed)
  have same := takeWhile_readBack_iff validSorted
  refine ⟨fun trips value listed => ?_, fun unmarked => ⟨?_, aligned_of_create created⟩⟩
  · have found := Option.some.inj (parse_unique archive read trips.1)
    exact same.mp found value ((member value).mpr listed)
  · have found := same.mpr fun value listed => unmarked value ((member value).mp listed)
    rwa [found] at read

/-- A file of three bytes is read back. -/
theorem newc_roundTrips_file : ∃ archive,
    createNewcArchiveFromEntriesV1 (Precedence.ofLinear Text) [⟨[1, 2, 3], 0o100644, js "a/b"⟩] =
      some archive ∧
    RoundTrips (Precedence.ofLinear Text) [⟨[1, 2, 3], 0o100644, js "a/b"⟩] archive := by
  have sized : (createNewcArchiveFromEntriesV1 (Precedence.ofLinear Text)
      [⟨[1, 2, 3], 0o100644, js "a/b"⟩]).map List.length = some 244 := by
    decide +kernel
  obtain ⟨archive, created, length⟩ := Option.map_eq_some_iff.mp sized
  have formed : WellFormed (js "a/b") := by decide +kernel
  refine ⟨archive, created, (newc_roundTrips ?_ created (by omega)).mpr ?_⟩
  · intro value listed
    rw [List.mem_singleton.mp listed]
    exact formed
  · intro value listed
    rw [List.mem_singleton.mp listed]
    decide +kernel

/-- A file whose name opens with a byte order mark comes back under another name. -/
theorem not_newc_roundTrips : ∃ archive,
    createNewcArchiveFromEntriesV1 (Precedence.ofLinear Text) [⟨[], 0o100644, [0xFEFF, 97]⟩] =
      some archive ∧
    WellFormed [0xFEFF, 97] ∧
    ¬ RoundTrips (Precedence.ofLinear Text) [⟨[], 0o100644, [0xFEFF, 97]⟩] archive ∧
    ParseNewcArchiveV1 archive (some [⟨[], some 0o100644, js "a"⟩]) := by
  have made : (createNewcArchiveFromEntriesV1 (Precedence.ofLinear Text)
      [⟨[], 0o100644, [0xFEFF, 97]⟩]).bind (fun archive => parseFrom archive 2 0 []) =
        some (some [⟨[], some 0o100644, js "a"⟩]) := by
    decide +kernel
  obtain ⟨archive, created, read⟩ := Option.bind_eq_some_iff.mp made
  have found : ParseNewcArchiveV1 archive (some [⟨[], some 0o100644, js "a"⟩]) := ⟨2, read⟩
  refine ⟨archive, created, by decide +kernel, fun trips => ?_, found⟩
  have same := Option.some.inj (parse_unique archive found trips.1)
  exact absurd same (by decide +kernel)

end Archive

end Holonomy.Images
