import Holonomy.Fuse.Inodes
import Holonomy.Foundation.StandardDecoder

/-!
# Names that are made and names that are listed

A name is taken from the bytes of a request, where its length is counted in UTF-16 units and a mark
that opens it is taken off. It is listed in the bytes that it is written in, where its length is
counted in bytes.
-/

namespace Holonomy.Fuse

open Foundation

/-! ## Reading a directory page by page

A reply holds the records of the entries that fit, from an offset on.
-/

/-- A word of some width, the least significant byte first. -/
def toLittleEndian : ℕ → ℕ → List UInt8
  | 0, _ => []
  | width + 1, value => UInt8.ofNat value :: toLittleEndian width (value / 256)

/-- The type of an entry as the kernel knows it. -/
def EntryKind.code : EntryKind → ℕ
  | .directory => 4
  | .symlink => 10
  | .file => 8

def EntryKind.ofCode (code : ℕ) : Option EntryKind :=
  if code = 4 then some .directory
  else if code = 10 then some .symlink
  else if code = 8 then some .file
  else none

/-- The record of an entry. -/
def DirectoryPart.bytes (part : DirectoryPart) : List UInt8 :=
  toLittleEndian 8 part.inode ++ toLittleEndian 8 part.next ++
    toLittleEndian 4 part.name.length ++ toLittleEndian 4 part.kind.code ++ part.name ++
      List.replicate (part.byteLength - (24 + part.name.length)) 0

/-- The first record of a reply, and what lies behind it. -/
def readRecord (body : List UInt8) : Option (DirectoryPart × List UInt8) :=
  let length := unsigned body 16 4
  let size := (24 + length + 7) / 8 * 8
  if length = 0 ∨ body.length < size then none
  else (EntryKind.ofCode (unsigned body 20 4)).map fun kind =>
    (⟨unsigned body 0 8, unsigned body 8 8, (body.drop 24).take length, kind⟩, body.drop size)

/-- The records of a reply, at most so many. -/
def readRecords : ℕ → List UInt8 → Option (List DirectoryPart)
  | _, [] => some []
  | 0, _ :: _ => none
  | fuel + 1, body =>
    (readRecord body).bind fun found =>
      (readRecords fuel found.2).map fun later => found.1 :: later

def recordsOf (body : List UInt8) : Option (List DirectoryPart) := readRecords body.length body

namespace Inodes

def readdir (closed : Bool) (entries : List DirectoryEntry) (offset maximum : ℕ)
    (tables : Inodes) : Inodes × Except ℕ (List UInt8) :=
  let reply := encodeV86FuseDirectoryV1 closed entries offset maximum tables
  (reply.1, reply.2.map fun parts => parts.flatMap DirectoryPart.bytes)

/-- Ask for a reply, and for what lies behind its last record, until a reply is empty: at most so
many times. The result is missing where that is not enough, or where a reply has no records. -/
def readPages (closed : Bool) (entries : List DirectoryEntry) (maximum : ℕ) :
    ℕ → ℕ → Inodes → Option (Except ℕ (List (List UInt8)))
  | 0, _, _ => none
  | fuel + 1, offset, tables =>
    match readdir closed entries offset maximum tables with
    | (_, .error number) => some (.error number)
    | (after, .ok body) =>
      (recordsOf body).bind fun records =>
        match records.getLast? with
        | none => some (.ok [])
        | some last => (readPages closed entries maximum fuel last.next after).map fun pages =>
          pages.map fun replies => body :: replies

end Inodes

section Records

variable {part : DirectoryPart} {rest : List UInt8}

@[simp]
theorem length_toLittleEndian (width value : ℕ) : (toLittleEndian width value).length = width := by
  induction width generalizing value with
  | zero => rfl
  | succ width ih => rw [toLittleEndian, List.length_cons, ih]

theorem littleEndian_toLittleEndian (width value : ℕ) :
    littleEndian (toLittleEndian width value) = value % 256 ^ width := by
  induction width generalizing value with
  | zero => rw [Nat.pow_zero, Nat.mod_one]; rfl
  | succ width ih =>
    have byte : (UInt8.ofNat value).toNat = value % 256 := UInt8.toNat_ofNat'
    rw [toLittleEndian, littleEndian, ih, byte, Nat.pow_succ', Nat.mod_mul]

theorem unsigned_between (front word back : List UInt8) :
    unsigned (front ++ (word ++ back)) front.length word.length = littleEndian word := by
  rw [unsigned, List.drop_left, List.take_left]

/-- What is read of a record: its words wrap. -/
def DirectoryPart.wrapped (part : DirectoryPart) : DirectoryPart :=
  { part with inode := part.inode % 2 ^ 64, next := part.next % 2 ^ 64 }

theorem length_bytes (part : DirectoryPart) : part.bytes.length = part.byteLength := by
  unfold DirectoryPart.bytes DirectoryPart.byteLength
  simp only [List.length_append, length_toLittleEndian, List.length_replicate]
  omega

/-- A record is read back, whatever lies behind it. -/
theorem readRecord_bytes (named : part.name.length ≠ 0) (small : part.name.length ≤ 255) :
    readRecord (part.bytes ++ rest) = some (part.wrapped, rest) := by
  have length : unsigned (part.bytes ++ rest) 16 4 = part.name.length := by
    have read := unsigned_between
      (toLittleEndian 8 part.inode ++ toLittleEndian 8 part.next)
      (toLittleEndian 4 part.name.length)
      (toLittleEndian 4 part.kind.code ++ (part.name ++
        (List.replicate (part.byteLength - (24 + part.name.length)) 0 ++ rest)))
    rw [littleEndian_toLittleEndian, Nat.mod_eq_of_lt (by omega)] at read
    simpa [DirectoryPart.bytes, List.append_assoc] using read
  have code : unsigned (part.bytes ++ rest) 20 4 = part.kind.code := by
    have read := unsigned_between
      (toLittleEndian 8 part.inode ++ toLittleEndian 8 part.next ++
        toLittleEndian 4 part.name.length)
      (toLittleEndian 4 part.kind.code) (part.name ++
        (List.replicate (part.byteLength - (24 + part.name.length)) 0 ++ rest))
    rw [littleEndian_toLittleEndian, Nat.mod_eq_of_lt (by cases part.kind <;> decide)] at read
    simpa [DirectoryPart.bytes, List.append_assoc] using read
  have inode : unsigned (part.bytes ++ rest) 0 8 = part.inode % 2 ^ 64 := by
    have read := unsigned_between [] (toLittleEndian 8 part.inode) (toLittleEndian 8 part.next ++
      (toLittleEndian 4 part.name.length ++ (toLittleEndian 4 part.kind.code ++ (part.name ++
        (List.replicate (part.byteLength - (24 + part.name.length)) 0 ++ rest)))))
    rw [littleEndian_toLittleEndian] at read
    simpa [DirectoryPart.bytes, List.append_assoc] using read
  have next : unsigned (part.bytes ++ rest) 8 8 = part.next % 2 ^ 64 := by
    have read := unsigned_between (toLittleEndian 8 part.inode) (toLittleEndian 8 part.next)
      (toLittleEndian 4 part.name.length ++ (toLittleEndian 4 part.kind.code ++ (part.name ++
        (List.replicate (part.byteLength - (24 + part.name.length)) 0 ++ rest))))
    rw [littleEndian_toLittleEndian] at read
    simpa [DirectoryPart.bytes, List.append_assoc] using read
  have name : ((part.bytes ++ rest).drop 24).take part.name.length = part.name := by
    have header : (toLittleEndian 8 part.inode ++ toLittleEndian 8 part.next ++
        toLittleEndian 4 part.name.length ++ toLittleEndian 4 part.kind.code).length = 24 := by
      simp
    unfold DirectoryPart.bytes
    rw [List.append_assoc, List.append_assoc, ← header, List.drop_left, List.take_left]
  have kind : EntryKind.ofCode part.kind.code = some part.kind := by
    cases part.kind <;> rfl
  have behind : (part.bytes ++ rest).drop ((24 + part.name.length + 7) / 8 * 8) = rest := by
    have size := length_bytes part
    unfold DirectoryPart.byteLength at size
    rw [← size, List.drop_left]
  have room : ¬ (part.bytes ++ rest).length < (24 + part.name.length + 7) / 8 * 8 := by
    rw [List.length_append, length_bytes, DirectoryPart.byteLength]
    omega
  unfold readRecord
  dsimp only
  rw [length, if_neg (not_or.mpr ⟨named, room⟩), code, kind, inode, next, name, behind]
  rfl

theorem readRecords_bytes {parts : List DirectoryPart}
    (readable : ∀ part ∈ parts, part.name.length ≠ 0 ∧ part.name.length ≤ 255) {fuel : ℕ}
    (enough : parts.length ≤ fuel) :
    readRecords fuel (parts.flatMap DirectoryPart.bytes) =
      some (parts.map DirectoryPart.wrapped) := by
  induction parts generalizing fuel with
  | nil => cases fuel <;> rfl
  | cons part parts ih =>
    obtain ⟨⟨named, small⟩, others⟩ := List.forall_mem_cons.mp readable
    cases fuel with
    | zero => cases enough
    | succ fuel =>
      have later := ih others (Nat.le_of_succ_le_succ enough)
      cases bytes : (part :: parts).flatMap DirectoryPart.bytes with
      | nil =>
        have size := congrArg List.length bytes
        rw [List.flatMap_cons, List.length_append, length_bytes, DirectoryPart.byteLength,
          List.length_nil] at size
        omega
      | cons byte rest =>
        rw [readRecords, ← bytes, List.flatMap_cons, readRecord_bytes named small]
        · simp only [Option.bind_some, later, Option.map_some, List.map_cons]
        · exact List.cons_ne_nil byte rest

end Records

namespace Inodes

variable {closed : Bool} {entries : List DirectoryEntry} {offset maximum index : ℕ}
  {tables : Inodes} {parts : List DirectoryPart}

def listing (entries : List DirectoryEntry) (index : ℕ) : List (ℕ × List UInt8 × EntryKind) :=
  (entries.zipIdx index).map fun entry => (entry.2 + 1, encodeUtf8 entry.1.name, entry.1.kind)

/-- What the kernel reads of a record, beside the inode. -/
def shown (part : DirectoryPart) : ℕ × List UInt8 × EntryKind := (part.next, part.name, part.kind)

def Lacks (closed : Bool) (entries : List DirectoryEntry) (number : ℕ) : Prop :=
  ∃ (entry : DirectoryEntry) (tables : Inodes), entry ∈ entries ∧
    tables.inode closed entry.path entry.kind = .error number

theorem directoryParts_shown
    (readable : ∀ entry ∈ entries, ¬ Unreadable (encodeUtf8 entry.name)) :
    (∀ number, (directoryParts closed entries index tables).2 = .error number →
      Lacks closed entries number) ∧
    ∀ parts, (directoryParts closed entries index tables).2 = .ok parts →
      parts.map shown = listing entries index := by
  induction entries generalizing index tables with
  | nil =>
    refine ⟨fun number failed => (by cases failed), fun parts made => ?_⟩
    cases made
    rfl
  | cons entry entries ih =>
    obtain ⟨here, others⟩ := List.forall_mem_cons.mp readable
    unfold directoryParts
    rw [if_neg here]
    cases found : tables.inode closed entry.path entry.kind with
    | error number =>
      refine ⟨fun other failed => ?_, fun parts made => (by cases made)⟩
      cases failed
      exact ⟨entry, tables, List.mem_cons_self, found⟩
    | ok pair =>
      obtain ⟨fails, lists⟩ := @ih (index + 1) pair.2 others
      dsimp only
      cases later : (directoryParts closed entries (index + 1) pair.2).2 with
      | error number =>
        refine ⟨fun other failed => ?_, fun parts made => (by cases made)⟩
        cases failed
        obtain ⟨entry, tables, listed, lacks⟩ := fails number later
        exact ⟨entry, tables, List.mem_cons_of_mem _ listed, lacks⟩
      | ok rest =>
        refine ⟨fun number failed => (by cases failed), fun parts made => ?_⟩
        cases made
        rw [List.map_cons, lists rest later]
        rfl

theorem selectParts_spec (parts : List DirectoryPart) (room : ℕ) :
    ∃ count, selectParts parts room = parts.take count ∧
      ((selectParts parts room).flatMap DirectoryPart.bytes).length ≤ room ∧
      (parts ≠ [] → (∀ part ∈ parts, part.byteLength ≤ room) → 0 < count) := by
  induction parts generalizing room with
  | nil => exact ⟨0, rfl, Nat.zero_le _, fun none => absurd rfl none⟩
  | cons part parts ih =>
    unfold selectParts
    by_cases large : part.byteLength > room
    · rw [if_pos large]
      refine ⟨0, rfl, Nat.zero_le _, fun _ fit => ?_⟩
      exact absurd (fit part List.mem_cons_self) (Nat.not_le.mpr large)
    · obtain ⟨count, same, small, -⟩ := ih (room - part.byteLength)
      rw [if_neg large, same]
      rw [same] at small
      refine ⟨count + 1, rfl, ?_, fun _ _ => Nat.succ_pos count⟩
      rw [List.flatMap_cons, List.length_append, length_bytes]
      omega

theorem mem_listing {item : ℕ × List UInt8 × EntryKind} (listed : item ∈ listing entries 0) :
    item.1 ≤ entries.length ∧ ∃ entry ∈ entries, item.2.1 = encodeUtf8 entry.name := by
  obtain ⟨⟨entry, place⟩, found, same⟩ := List.mem_map.mp listed
  obtain ⟨-, inside, isEntry⟩ := List.mem_zipIdx found
  rw [Nat.zero_add] at inside
  rw [← same]
  refine ⟨inside, entry, ?_, rfl⟩
  rw [isEntry]
  exact List.getElem_mem _

theorem length_le_bytes (parts : List DirectoryPart) :
    parts.length ≤ (parts.flatMap DirectoryPart.bytes).length := by
  induction parts with
  | nil => exact Nat.le_refl 0
  | cons part parts ih =>
    rw [List.flatMap_cons, List.length_append, length_bytes, DirectoryPart.byteLength,
      List.length_cons]
    omega

/-- A reply is well formed: its records are read back, up to the words that wrap, each takes a
multiple of eight bytes, and all of them are not longer than what was asked for. -/
def IsReply (maximum : ℕ) (body : List UInt8) : Prop :=
  body.length ≤ maximum ∧ ∃ parts : List DirectoryPart,
    body = parts.flatMap DirectoryPart.bytes ∧ recordsOf body = some (parts.map .wrapped) ∧
      ∀ part ∈ parts, part.bytes.length % 8 = 0

/-- What the kernel reads of some replies, beside the inodes. -/
def shownBy (replies : List (List UInt8)) : List (ℕ × List UInt8 × EntryKind) :=
  replies.flatMap fun body => ((recordsOf body).getD []).map shown

theorem readdir_ok (readable : ∀ entry ∈ entries, ¬ Unreadable (encodeUtf8 entry.name))
    (few : entries.length < 2 ^ 32) (room : 280 ≤ maximum)
    (shows : parts.map shown = listing entries 0) {body : List UInt8}
    (made : body = (selectParts (parts.drop offset) maximum).flatMap DirectoryPart.bytes) :
    IsReply maximum body ∧ ∃ records, recordsOf body = some records ∧
      records.map shown <+: (listing entries 0).drop offset ∧
      (offset < entries.length → records ≠ []) := by
  have each : ∀ part ∈ parts, part.next ≤ entries.length ∧ part.name.length ≠ 0 ∧
      part.name.length ≤ 255 := by
    intro part partIn
    have listed : shown part ∈ listing entries 0 := shows ▸ List.mem_map_of_mem partIn
    obtain ⟨small, entry, entryIn, same⟩ := mem_listing listed
    have fine := readable entry entryIn
    rw [← same, Unreadable, not_or, not_or] at fine
    exact ⟨small, fine.1, Nat.le_of_not_gt fine.2.1⟩
  obtain ⟨count, same, fits, progress⟩ := selectParts_spec (parts.drop offset) maximum
  have kept : ∀ part ∈ (parts.drop offset).take count, part ∈ parts :=
    fun part partIn => List.mem_of_mem_drop (List.mem_of_mem_take partIn)
  rw [← made] at fits
  rw [same] at made
  have read : recordsOf body = some (((parts.drop offset).take count).map .wrapped) := by
    rw [made]
    exact readRecords_bytes (fun part partIn => (each part (kept part partIn)).2)
      (length_le_bytes _)
  have aligned (part : DirectoryPart) : part.bytes.length % 8 = 0 := by
    rw [length_bytes, DirectoryPart.byteLength, Nat.mul_mod_left]
  refine ⟨⟨fits, _, made, read, fun part _ => aligned part⟩, _, read, ?_, fun more none => ?_⟩
  · have unwrapped : (((parts.drop offset).take count).map .wrapped).map shown =
        ((listing entries 0).drop offset).take count := by
      rw [← shows, List.map_map, ← List.map_drop, ← List.map_take]
      apply List.map_congr_left
      intro part partIn
      have small := (each part (kept part partIn)).1
      have next : part.next % 2 ^ 64 = part.next := Nat.mod_eq_of_lt (by omega)
      rw [Function.comp_apply, shown, DirectoryPart.wrapped, next]
      rfl
    rw [unwrapped]
    exact List.take_prefix count _
  · have length : parts.length = entries.length := by
      have lengths := congrArg List.length shows
      simpa [listing] using lengths
    have large : ∀ part ∈ parts.drop offset, part.byteLength ≤ maximum := by
      intro part partIn
      have small := (each part (List.mem_of_mem_drop partIn)).2.2
      rw [DirectoryPart.byteLength]
      omega
    have some' := progress (by simp [length, more]) large
    have empty := congrArg List.length none
    rw [List.length_map, List.length_take, List.length_drop, List.length_nil] at empty
    omega

theorem next_of_prefix {records : List DirectoryPart} {last : DirectoryPart}
    (shows : records.map shown <+: (listing entries 0).drop offset)
    (isLast : records.getLast? = some last) : last.next = offset + records.length := by
  obtain ⟨front, rfl⟩ := List.getLast?_eq_some_iff.mp isLast
  obtain ⟨back, same⟩ := shows
  have there : ((listing entries 0).drop offset)[front.length]? = some (shown last) := by
    rw [← same, List.map_append, List.append_assoc,
      List.getElem?_append_right (by rw [List.length_map]), List.length_map, Nat.sub_self]
    rfl
  rw [List.getElem?_drop, listing, List.getElem?_map, List.getElem?_zipIdx] at there
  obtain ⟨⟨entry, place⟩, found, isShown⟩ := Option.map_eq_some_iff.mp there
  obtain ⟨other, -, isEntry⟩ := Option.map_eq_some_iff.mp found
  have next : place + 1 = last.next := congrArg Prod.fst isShown
  have index : 0 + (offset + front.length) = place := congrArg Prod.snd isEntry
  rw [List.length_append, List.length_singleton, ← next, ← index]
  omega

theorem readPages_from (readable : ∀ entry ∈ entries, ¬ Unreadable (encodeUtf8 entry.name))
    (few : entries.length < 2 ^ 32) (room : 280 ≤ maximum) (fuel : ℕ)
    (inside : offset ≤ entries.length) (enough : entries.length - offset < fuel)
    (tables : Inodes) :
    ∃ outcome, readPages closed entries maximum fuel offset tables = some outcome ∧
      (∀ number, outcome = .error number → Lacks closed entries number) ∧
      ∀ replies, outcome = .ok replies → (∀ body ∈ replies, IsReply maximum body) ∧
        shownBy replies = (listing entries 0).drop offset := by
  induction fuel generalizing offset tables with
  | zero => cases enough
  | succ fuel ih =>
    obtain ⟨fails, lists⟩ := @directoryParts_shown closed entries 0 tables readable
    have safe : ¬ offset > 9007199254740991 := by omega
    unfold readPages readdir encodeV86FuseDirectoryV1
    rw [if_neg safe]
    dsimp only
    cases found : (directoryParts closed entries 0 tables).2 with
    | error number =>
      refine ⟨.error number, rfl, fun other same => ?_, fun replies none => (by cases none)⟩
      rw [← Except.error.inj same]
      exact fails number found
    | ok parts =>
      generalize made : (selectParts (parts.drop offset) maximum).flatMap DirectoryPart.bytes = body
      obtain ⟨reply, records, read, shows, progress⟩ :=
        readdir_ok readable few room (lists parts found) made.symm
      dsimp only [Except.map]
      rw [made, read]
      dsimp only [Option.bind_some]
      cases isLast : records.getLast? with
      | none =>
        have empty := List.getLast?_eq_none_iff.mp isLast
        refine ⟨.ok [], rfl, fun number none => (by cases none), fun replies same => ?_⟩
        rw [← Except.ok.inj same]
        refine ⟨fun body none => absurd none List.not_mem_nil, ?_⟩
        have past : entries.length ≤ offset := by
          by_contra more
          exact progress (Nat.lt_of_not_le more) empty
        have none : (listing entries 0).drop offset = [] := by
          rw [List.drop_eq_nil_iff, listing, List.length_map, List.length_zipIdx]
          exact past
        rw [none]
        rfl
      | some last =>
        have next := next_of_prefix shows isLast
        have positive : 0 < records.length := by
          cases records with
          | nil => cases isLast
          | cons record records => exact Nat.succ_pos _
        have bound := shows.length_le
        rw [List.length_map, List.length_drop, listing, List.length_map, List.length_zipIdx]
          at bound
        obtain ⟨outcome, later, lacks, delivers⟩ := @ih last.next (by omega) (by omega)
          (directoryParts closed entries 0 tables).1
        dsimp only
        rw [later]
        cases outcome with
        | error number => exact ⟨.error number, rfl, lacks, fun replies none => by cases none⟩
        | ok rest =>
          obtain ⟨replies, shown'⟩ := delivers rest rfl
          refine ⟨.ok (body :: rest), rfl, fun number none => (by cases none), fun all same => ?_⟩
          rw [← Except.ok.inj same]
          refine ⟨List.forall_mem_cons.mpr ⟨reply, replies⟩, ?_⟩
          have first := List.prefix_iff_eq_take.mp shows
          rw [shownBy, List.flatMap_cons, read, Option.getD_some]
          change records.map shown ++ shownBy rest = _
          rw [shown', next, first, List.length_map, ← List.drop_drop, List.take_append_drop]

def nineEntries : List DirectoryEntry := List.replicate 9 ⟨.file, js "a", js "/a"⟩

end Inodes

def OpensWithMark (body : List UInt8) (offset : ℕ) : Prop := byteOrderMark <+: body.drop offset

/-- A name can stand in a listing. -/
def Listable (name : Text) : Prop := ¬ Inodes.Unreadable (encodeUtf8 name)

def Lists (name : Text) : Prop :=
  ∀ (closed : Bool) (entries : List DirectoryEntry) (offset maximum : ℕ) (tables : Inodes),
    (∃ entry ∈ entries, entry.name = name) →
    (∀ entry ∈ entries, entry.name = name ∨ Listable entry.name) → offset ≤ 9007199254740991 →
    ∀ number, (tables.encodeV86FuseDirectoryV1 closed entries offset maximum).2 = .error number →
      Inodes.Lacks closed entries number

def LooksUp (name : Text) : Prop := fuseNameV1 (encodeUtf8 name ++ [0]) 0 = .ok name

/-- A listed name that is looked up under its own text: all its surrogates are paired, no mark opens
it, and it is no way to somewhere else. -/
def Ordinary (name : Text) : Prop :=
  WellFormed name ∧ name.head? ≠ some 0xFEFF ∧ name ≠ js "." ∧ name ≠ js ".." ∧ 47 ∉ name

section Names

variable {name : Text} {body other : List UInt8} {offset place : ℕ}

theorem fuseNameV1_eq_ok : fuseNameV1 body offset = .ok name ↔
    ∃ bytes, body.drop offset = bytes ++ [0] ∧ bytes ≠ [] ∧ 0 ∉ bytes ∧
      decodeUtf8 bytes = some name ∧ name ≠ [] ∧ name ≠ js "." ∧ name ≠ js ".." ∧ 47 ∉ name ∧
      name.length ≤ 255 := by
  unfold fuseNameV1
  dsimp only
  constructor
  · intro taken
    split_ifs at taken with malformed
    rw [not_or, not_or, Nat.not_lt, not_not] at malformed
    obtain ⟨long, ended, plain⟩ := malformed
    have whole := List.dropLast_append_getLast? 0 ended
    split at taken
    · cases taken
    · next read =>
      split_ifs at taken with refused
      simp only [not_or, Nat.not_lt, gt_iff_lt] at refused
      cases taken
      refine ⟨_, whole.symm, fun none => ?_, plain, read, refused⟩
      rw [← whole, none] at long
      exact absurd long (by decide)
  · rintro ⟨bytes, whole, some', plain, read, fine⟩
    have positive := List.length_pos_of_ne_nil some'
    rw [whole, List.dropLast_concat, List.getLast?_concat, if_neg, read]
    · simp only [ite_eq_right_iff, reduceCtorEq, imp_false, not_or, Nat.not_lt, gt_iff_lt]
      exact fine
    · rw [List.length_append, List.length_singleton, not_or, not_or, Nat.not_lt, not_not]
      exact ⟨by omega, rfl, plain⟩

theorem length_le_encodeUtf8 (name : Text) : name.length ≤ (encodeUtf8 name).length := by
  have each (point : ℕ) (small : point < 0x110000) :
      (fromCodePoint point).length ≤ (encodePoint (scalar point)).length := by
    rw [length_encodePoint]
    by_cases basic : point < 0x10000
    · rw [fromCodePoint, if_pos basic, List.length_singleton, width]
      split_ifs <;> omega
    · have plain : ¬ IsSurrogate point := by
        unfold IsSurrogate
        omega
      rw [scalar, if_neg plain, fromCodePoint, if_neg basic, width, if_neg (by omega),
        if_neg (by omega), if_neg (by omega)]
      exact Nat.le_add_left 2 2
  have units := congrArg List.length (flatMap_points name)
  rw [List.length_flatMap] at units
  rw [← units, encodeUtf8, List.length_flatMap]
  exact List.sum_le_sum fun point pointIn => each point (points_lt name point pointIn)

theorem listable_iff : Listable name ↔
    name ≠ [] ∧ (encodeUtf8 name).length ≤ 255 ∧ 0 ∉ encodeUtf8 name := by
  unfold Listable Inodes.Unreadable
  rw [not_or, not_or, List.length_eq_zero_iff, encodeUtf8_eq_nil, Nat.not_lt]

theorem not_lacks_invalid {closed : Bool} {entries : List DirectoryEntry} :
    ¬ Inodes.Lacks closed entries invalid := by
  rintro ⟨entry, tables, -, failed⟩
  unfold Inodes.inode at failed
  split at failed
  · cases failed
  · cases reserved : tables.reserveInode closed entry.path with
    | error number =>
      rw [reserved] at failed
      cases failed
      unfold Inodes.reserveInode at reserved
      split at reserved
      · cases reserved
      · split at reserved
        · cases reserved
        · split at reserved <;> cases reserved
    | ok pair =>
      cases committed : pair.2.commit closed pair.1 with
      | error number =>
        rw [reserved] at failed
        simp only [bind, Except.bind, committed] at failed
        cases failed
        unfold Inodes.commit at committed
        split_ifs at committed
        cases committed
      | ok found =>
        rw [reserved] at failed
        simp only [bind, Except.bind, committed] at failed
        cases failed

theorem lists_iff : Lists name ↔ Listable name := by
  constructor
  · intro lists unreadable
    refine not_lacks_invalid (lists false [⟨.file, name, []⟩] 0 0 .new ?_ ?_ (by decide) invalid ?_)
    · exact ⟨_, List.mem_singleton_self _, rfl⟩
    · exact fun entry listed => .inl (List.mem_singleton.mp listed ▸ rfl)
    · have fails : Inodes.directoryParts false [⟨.file, name, []⟩] 0 .new =
          (.new, .error invalid) := by
        rw [Inodes.directoryParts, if_pos unreadable]
      rw [Inodes.encodeV86FuseDirectoryV1, if_neg (by decide), fails]
      rfl
  · intro listable closed entries offset maximum tables _ others small number failed
    have readable : ∀ entry ∈ entries, ¬ Inodes.Unreadable (encodeUtf8 entry.name) := by
      intro entry listed
      rcases others entry listed with same | fine
      · rw [same]
        exact listable
      · exact fine
    rw [Inodes.encodeV86FuseDirectoryV1, if_neg (Nat.not_lt.mpr small)] at failed
    dsimp only at failed
    have lacks := (@Inodes.directoryParts_shown closed entries 0 tables readable).1
    cases encoded : (Inodes.directoryParts closed entries 0 tables).2 with
    | error reason =>
      rw [encoded] at failed
      cases failed
      exact lacks number encoded
    | ok parts =>
      rw [encoded] at failed
      cases failed

theorem lists_of_taken (taken : fuseNameV1 body offset = .ok name) :
    Lists name ↔ utf8ByteLength name ≤ 255 := by
  obtain ⟨bytes, -, -, plain, read, named, -⟩ := fuseNameV1_eq_ok.mp taken
  obtain ⟨formed, whole⟩ := decodeUtf8_eq_some read
  have zero : 0 ∉ encodeUtf8 name := by
    intro found
    apply plain
    rw [whole]
    exact List.mem_append_right _ found
  rw [lists_iff, listable_iff, length_encodeUtf8 formed]
  exact ⟨fun fine => fine.2.1, fun few => ⟨named, few, zero⟩⟩

theorem looksUp_of_listable (listable : Listable name) : LooksUp name ↔ Ordinary name := by
  obtain ⟨named, few, plain⟩ := listable_iff.mp listable
  have units := length_le_encodeUtf8 name
  unfold LooksUp
  rw [fuseNameV1_eq_ok]
  constructor
  · rintro ⟨bytes, whole, -, -, read, -, dot, dots, slash, -⟩
    rw [List.drop_zero] at whole
    rw [← List.append_cancel_right whole] at read
    have formed := (decodeUtf8_eq_some read).1
    have same := Option.some.inj ((decodeUtf8_encodeUtf8 formed).symm.trans read)
    exact ⟨formed, withoutMark_eq_self.mp same, dot, dots, slash⟩
  · rintro ⟨formed, unmarked, dot, dots, slash⟩
    refine ⟨encodeUtf8 name, rfl, fun none => named ((encodeUtf8_eq_nil name).mp none), plain, ?_,
      named, dot, dots, slash, by omega⟩
    rw [decodeUtf8_encodeUtf8 formed, withoutMark_eq_self.mpr unmarked]

theorem same_bytes_iff (taken : fuseNameV1 body offset = .ok name)
    (retaken : fuseNameV1 other place = .ok name) :
    body.drop offset = other.drop place ↔
      (OpensWithMark body offset ↔ OpensWithMark other place) := by
  obtain ⟨bytes, whole, -, -, read, -⟩ := fuseNameV1_eq_ok.mp taken
  obtain ⟨others, all, -, -, reread, -⟩ := fuseNameV1_eq_ok.mp retaken
  have marked (bytes : List UInt8) : byteOrderMark <+: bytes ++ [0] ↔ byteOrderMark <+: bytes := by
    rw [List.prefix_concat_iff]
    refine or_iff_right fun same => ?_
    have last := congrArg List.getLast? same
    rw [List.getLast?_concat] at last
    cases last
  unfold OpensWithMark
  rw [whole, all, marked, marked, List.append_cancel_right_eq]
  constructor
  · intro same
    rw [same]
  · intro both
    rw [(decodeUtf8_eq_some read).2, (decodeUtf8_eq_some reread).2]
    simp only [both]

end Names

/-- A name that was taken can be listed exactly where it is written in 255 bytes; a listed name is
looked up under its own text exactly where it is ordinary; and the bytes of two names that were
taken as one are the same exactly where a mark opens both or neither. -/
theorem names_agree {name listed : Text} {body other : List UInt8} {offset place : ℕ}
    (taken : fuseNameV1 body offset = .ok name) (retaken : fuseNameV1 other place = .ok name)
    (listable : Listable listed) :
    (Lists name ↔ utf8ByteLength name ≤ 255) ∧ (LooksUp listed ↔ Ordinary listed) ∧
      (body.drop offset = other.drop place ↔
        (OpensWithMark body offset ↔ OpensWithMark other place)) :=
  ⟨lists_of_taken taken, looksUp_of_listable listable, same_bytes_iff taken retaken⟩

/-- A name that opens with a mark in one request and not in another. -/
theorem names_agree_marked :
    (Lists (js "a") ↔ utf8ByteLength (js "a") ≤ 255) ∧ (LooksUp (js "a") ↔ Ordinary (js "a")) ∧
      ((byteOrderMark ++ [0x61, 0]).drop 0 = List.drop 0 [0x61, 0] ↔
        (OpensWithMark (byteOrderMark ++ [0x61, 0]) 0 ↔ OpensWithMark [0x61, 0] 0)) :=
  @names_agree (js "a") (js "a") (byteOrderMark ++ [0x61, 0]) [0x61, 0] 0 0 (by decide +kernel)
    (by decide +kernel) (show ¬ Inodes.Unreadable (encodeUtf8 (js "a")) by decide +kernel)

/-- A name of 128 letters that take two bytes each is taken and cannot be listed; the mark is listed
and not looked up; and a name with a mark in front of it is taken as the name without. -/
theorem not_names_agree :
    (¬ ∀ name body offset, fuseNameV1 body offset = .ok name → Lists name) ∧
    (¬ ∀ name, Listable name → LooksUp name) ∧
    (¬ ∀ name body other, fuseNameV1 body 0 = .ok name → fuseNameV1 other 0 = .ok name →
      body = other) := by
  refine ⟨fun all => ?_, fun all => ?_, fun all => ?_⟩
  · have lists := all (List.replicate 128 0xE9) (encodeUtf8 (List.replicate 128 0xE9) ++ [0]) 0
      (by decide +kernel)
    have unreadable : Inodes.Unreadable (encodeUtf8 (List.replicate 128 0xE9)) := by
      decide +kernel
    exact lists_iff.mp lists unreadable
  · have looksUp := all [0xFEFF] (show ¬ Inodes.Unreadable (encodeUtf8 [0xFEFF]) by decide +kernel)
    have refused : ¬ LooksUp [0xFEFF] := by
      unfold LooksUp
      decide +kernel
    exact refused looksUp
  · have same := all (js "a") (byteOrderMark ++ [0x61, 0]) [0x61, 0] (by decide +kernel)
      (by decide +kernel)
    cases same

end Holonomy.Fuse
