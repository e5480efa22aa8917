import Holonomy.Foundation.Hexadecimal

/-!
# Where the archive reader ends

The reader goes from the header of one record to the next. The next header stands behind the data of
the record, whose size is written in the header; a size may be written with a sign, so the next
header may stand where the reader was before.
-/

namespace Holonomy.Images

open Foundation

/-! ## The archive of an image

An image is an archive of records, each with a header of hexadecimal fields, a name and its data;
name and data are filled up to multiples of four bytes, and a trailer ends the archive.
-/

/-- A file, directory or link of an image. A mode that is no number from zero on is refused before
anything else is done, so modes are numbers from zero on here. -/
structure NewcEntryV1 where
  bytes : List UInt8
  mode : ℕ
  name : Text
  deriving DecidableEq

/-- What the reader finds; a mode that is not written in digits is `none`. -/
structure ParsedEntryV1 where
  bytes : List UInt8
  mode : Option ℤ
  name : Text
  deriving DecidableEq

/-- A number as a signed 32-bit word. -/
def toInt32 (value : ℤ) : ℤ := (value + 2147483648) % 4294967296 - 2147483648

/-- The next multiple of four, in 32 bits. -/
def align4 (value : ℤ) : ℤ := toInt32 (value + 3) - toInt32 (value + 3) % 4

/-- A field of a header. -/
def hex (value : ℕ) : Text := padStart 8 48 (toHex value)

/-- Bytes to fill up with; there are no arrays of negative length. -/
def zeros (count : ℤ) : Option (List UInt8) :=
  if 0 ≤ count then some (List.replicate count.toNat 0) else none

/-- The name of the record that ends an archive. -/
def trailerName : Text := js "TRAILER!!!"

def header (inode mode links size nameSize : ℕ) : Text :=
  [js "070701", hex inode, hex mode, hex 0, hex 0, hex links, hex 0, hex size, hex 0, hex 0, hex 0,
    hex 0, hex nameSize, hex 0].flatten

/-- A record. -/
def entry (value : NewcEntryV1) (inode links : ℕ) : Option (List UInt8) := do
  let nameBytes := encodeUtf8 (value.name ++ [0])
  let head := encodeUtf8 (header inode value.mode links value.bytes.length nameBytes.length)
  let gap ← zeros (align4 (head.length + nameBytes.length) - head.length - nameBytes.length)
  let tail ← zeros (align4 value.bytes.length - value.bytes.length)
  some (head ++ nameBytes ++ gap ++ value.bytes ++ tail)

def fileType (mode : ℕ) : ℕ := mode &&& 0o170000

def Valid (value : NewcEntryV1) : Prop :=
  value.mode ≤ 0xFFFFFFFF ∧ value.name ≠ [] ∧ value.name ≠ trailerName ∧ 0 ∉ value.name ∧
    value.name.head? ≠ some 47 ∧ value.name.getLast? ≠ some 47 ∧
    (∀ part ∈ value.name.splitOn 47, part ≠ [] ∧ part ≠ js "." ∧ part ≠ js "..") ∧
    fileType value.mode ∈ [0o040000, 0o100000, 0o120000] ∧
    (fileType value.mode = 0o040000 → value.bytes = [])
  deriving Decidable

def normalizeEntries (localeCompare : Precedence Text) (values : List NewcEntryV1) :
    Option (List NewcEntryV1) :=
  if (∀ value ∈ values, Valid value) ∧ (values.map NewcEntryV1.name).Nodup then
    some ((localeCompare.comap NewcEntryV1.name).sort values)
  else none

def records : List NewcEntryV1 → ℕ → Option (List UInt8)
  | [], _ => some []
  | value :: rest, inode => do
    let written ← entry value inode (if fileType value.mode = 0o040000 then 2 else 1)
    let later ← records rest (inode + 1)
    some (written ++ later)

def createNewcArchiveFromEntriesV1 (localeCompare : Precedence Text) (values : List NewcEntryV1) :
    Option (List UInt8) := do
  let entries ← normalizeEntries localeCompare values
  let output ← records entries 1
  let trailer ← entry ⟨[], 0, trailerName⟩ (entries.length + 1) 1
  some (output ++ trailer)

section Reader

variable (bytes : List UInt8)

/-- A position in an array, where negative ones count from the end. -/
def position (offset : ℤ) : ℕ :=
  if offset < 0 then (bytes.length + offset).toNat else min offset.toNat bytes.length

/-- A part of an array. -/
def slice (start stop : ℤ) : List UInt8 :=
  (bytes.drop (position bytes start)).take (position bytes stop - position bytes start)

/-- A byte of an array, unless the position is outside. -/
def byteAt (offset : ℤ) : Option UInt8 := if offset < 0 then none else bytes[offset.toNat]?

def field (offset : ℤ) : Option (Option ℤ) :=
  (decodeUtf8 (slice bytes offset (offset + 8))).map parseHex

def readRecord (offset : ℤ) : Option (Option (ParsedEntryV1 × ℤ)) := do
  let magic ← decodeUtf8 (slice bytes offset (offset + 6))
  let mode ← field bytes (offset + 14)
  let sizeField ← field bytes (offset + 54)
  let nameSizeField ← field bytes (offset + 94)
  let size ← sizeField
  let nameSize ← nameSizeField
  if magic ≠ js "070701" ∨ nameSize ≤ 0 then none
  else
    let nameEnd := offset + 110 + nameSize
    if nameEnd > bytes.length ∨ byteAt bytes (nameEnd - 1) ≠ some 0 then none
    else
      let name ← decodeUtf8 (slice bytes (offset + 110) (nameEnd - 1))
      let dataStart := align4 nameEnd
      let dataEnd := dataStart + size
      if dataEnd > bytes.length then none
      else if name = trailerName then some none
      else some (some (⟨slice bytes dataStart dataEnd, mode, name⟩, align4 dataEnd))

def parseFrom : ℕ → ℤ → List ParsedEntryV1 → Option (Option (List ParsedEntryV1))
  | 0, _, _ => none
  | fuel + 1, offset, output =>
    if offset + 110 ≤ bytes.length then
      match readRecord bytes offset with
      | none => some none
      | some none => some (some output)
      | some (some (found, next)) => parseFrom fuel next (output ++ [found])
    else some none

/-- The reader ends and returns these entries, or throws. -/
def ParseNewcArchiveV1 (outcome : Option (List ParsedEntryV1)) : Prop :=
  ∃ fuel, parseFrom bytes fuel 0 [] = some outcome

theorem parseFrom_mono {fuel more : ℕ} (enough : fuel ≤ more) {offset : ℤ}
    {output : List ParsedEntryV1} {outcome : Option (List ParsedEntryV1)}
    (parsed : parseFrom bytes fuel offset output = some outcome) :
    parseFrom bytes more offset output = some outcome := by
  induction fuel generalizing more offset output with
  | zero => cases parsed
  | succ fuel ih =>
    obtain ⟨more, rfl⟩ : ∃ less, more = less + 1 := ⟨more - 1, by omega⟩
    rw [parseFrom] at parsed ⊢
    split at parsed
    · rename_i inside
      rw [if_pos inside]
      cases read : readRecord bytes offset with
      | none =>
        rw [read] at parsed
        exact parsed
      | some found =>
        rw [read] at parsed
        cases found with
        | none => exact parsed
        | some pair => exact ih (by omega) parsed
    · rename_i outside
      rw [if_neg outside]
      exact parsed

theorem parse_unique {left right : Option (List ParsedEntryV1)}
    (first : ParseNewcArchiveV1 bytes left) (second : ParseNewcArchiveV1 bytes right) :
    left = right := by
  obtain ⟨fewer, parsed⟩ := first
  obtain ⟨more, other⟩ := second
  have wide := parseFrom_mono bytes (Nat.le_max_left fewer more) parsed
  rw [parseFrom_mono bytes (Nat.le_max_right fewer more) other] at wide
  exact (Option.some.inj wide).symm

end Reader

section Progress

variable (bytes : List UInt8)

inductive Reached : ℤ → Prop where
  | start : Reached 0
  | next {offset next : ℤ} {found : ParsedEntryV1} (before : Reached offset)
    (inside : offset + 110 ≤ bytes.length)
    (read : readRecord bytes offset = some (some (found, next))) : Reached next

structure Passes (offset size nameSize : ℤ) : Prop where
  reached : Reached bytes offset
  inside : offset + 110 ≤ bytes.length
  size : field bytes (offset + 54) = some (some size)
  nameSize : field bytes (offset + 94) = some (some nameSize)
  read : ∃ entry, readRecord bytes offset = some (some entry)

def EndsBehind (offset size nameSize : ℤ) : Prop :=
  offset + 4 ≤ toInt32 (align4 (offset + 110 + nameSize) + size + 3)

def GoesForward : Prop :=
  ∀ offset found next, Reached bytes offset → offset + 110 ≤ bytes.length →
    readRecord bytes offset = some (some (found, next)) → offset < next

variable {bytes}

theorem next_of_readRecord {offset next : ℤ} {found : ParsedEntryV1}
    (read : readRecord bytes offset = some (some (found, next))) :
    ∃ size nameSize, field bytes (offset + 54) = some (some size) ∧
      field bytes (offset + 94) = some (some nameSize) ∧
      next = align4 (align4 (offset + 110 + nameSize) + size) := by
  unfold readRecord at read
  simp only [Option.bind_eq_bind, Option.bind_eq_some_iff] at read
  obtain ⟨magic, -, mode, -, sizeField, sizeRead, nameField, nameRead, size, rfl, nameSize, rfl,
    rest⟩ := read
  refine ⟨size, nameSize, sizeRead, nameRead, ?_⟩
  split_ifs at rest with _ _ beyond
  · obtain ⟨name, -, none⟩ := Option.bind_eq_some_iff.mp rest
    cases none
  obtain ⟨name, -, rest⟩ := Option.bind_eq_some_iff.mp rest
  split_ifs at rest
  · cases rest
  · cases rest
    rfl

theorem Reached.aligned {offset : ℤ} (reached : Reached bytes offset) : offset % 4 = 0 := by
  cases reached with
  | start => rfl
  | next before inside read =>
    obtain ⟨size, nameSize, -, -, same⟩ := next_of_readRecord read
    rw [same]
    unfold align4
    omega

theorem lt_align4_iff {offset size nameSize : ℤ} (aligned : offset % 4 = 0) :
    offset < align4 (align4 (offset + 110 + nameSize) + size) ↔
      EndsBehind offset size nameSize := by
  unfold EndsBehind
  generalize align4 (offset + 110 + nameSize) + size = stop
  unfold align4
  omega

theorem goesForward_iff : GoesForward bytes ↔
    ∀ offset size nameSize, Passes bytes offset size nameSize →
    EndsBehind offset size nameSize := by
  constructor
  · intro forward offset size nameSize passes
    obtain ⟨⟨found, next⟩, read⟩ := passes.read
    obtain ⟨dataSize, nameField, sizeRead, nameRead, same⟩ := next_of_readRecord read
    have further := forward offset found next passes.reached passes.inside read
    rw [passes.size] at sizeRead
    rw [passes.nameSize] at nameRead
    cases sizeRead
    cases nameRead
    rw [same] at further
    exact (lt_align4_iff passes.reached.aligned).mp further
  · intro behind offset found next reached inside read
    obtain ⟨size, nameSize, sizeRead, nameRead, same⟩ := next_of_readRecord read
    have passes : Passes bytes offset size nameSize :=
      ⟨reached, inside, sizeRead, nameRead, _, read⟩
    rw [same]
    exact (lt_align4_iff reached.aligned).mpr (behind offset size nameSize passes)

theorem GoesForward.ends (forward : GoesForward bytes) {fuel : ℕ} {offset : ℤ}
    (output : List ParsedEntryV1) (reached : Reached bytes offset) (some' : 0 < fuel)
    (enough : bytes.length - offset < fuel) :
    ∃ outcome, parseFrom bytes fuel offset output = some outcome := by
  induction fuel generalizing offset output with
  | zero => exact absurd some' (lt_irrefl 0)
  | succ fuel ih =>
    unfold parseFrom
    by_cases inside : offset + 110 ≤ bytes.length
    · rw [if_pos inside]
      cases read : readRecord bytes offset with
      | none => exact ⟨none, rfl⟩
      | some record =>
        cases record with
        | none => exact ⟨some output, rfl⟩
        | some pair =>
          have further : offset < pair.2 := forward offset pair.1 pair.2 reached inside read
          exact ih (output ++ [pair.1]) (.next reached inside read) (by omega) (by omega)
    · rw [if_neg inside]
      exact ⟨none, rfl⟩

/-- The reader goes forward with each record, and so ends within as many steps as there are bytes,
exactly when the data of every record it goes past ends behind the header of the record. -/
theorem parse_goesForward_iff (bytes : List UInt8) :
    (GoesForward bytes ∧ ∃ outcome, parseFrom bytes (bytes.length + 1) 0 [] = some outcome) ↔
      ∀ offset size nameSize, Passes bytes offset size nameSize →
        EndsBehind offset size nameSize := by
  rw [← goesForward_iff]
  constructor
  · exact fun both => both.1
  · intro forward
    have enough : (bytes.length : ℤ) - 0 < ((bytes.length + 1 : ℕ) : ℤ) := by omega
    exact ⟨forward, forward.ends [] .start (Nat.succ_pos _) enough⟩

/-- A record whose size takes the reader back to its header. -/
def returning : List UInt8 :=
  encodeUtf8 (js "070701" ++ List.replicate 48 0x30 ++ js "-0000070" ++ List.replicate 32 0x30 ++
    js "00000002" ++ List.replicate 8 0x30 ++ [0x61, 0])

/-- A size with a sign lets the reader read one record for ever. -/
theorem not_parse_ends : ¬ ∀ bytes, ∃ outcome, ParseNewcArchiveV1 bytes outcome := by
  intro ends
  obtain ⟨outcome, fuel, parsed⟩ := ends returning
  have again : ∀ (fuel : ℕ) (output : List ParsedEntryV1),
      parseFrom returning fuel 0 output = none := by
    intro fuel
    induction fuel with
    | zero => exact fun _ => rfl
    | succ fuel ih =>
      intro output
      have inside : (0 : ℤ) + 110 ≤ returning.length := by decide +kernel
      have read : readRecord returning 0 = some (some (⟨[], some 0, [0x61]⟩, 0)) := by
        decide +kernel
      unfold parseFrom
      rw [if_pos inside, read]
      exact ih _
  rw [again fuel []] at parsed
  cases parsed

end Progress

end Holonomy.Images
