import Holonomy.Foundation.Json
import Holonomy.Foundation.OrderedMap

/-!
# The inodes of a file system

One table finds the path of an inode and another the inode of a path. A path whose creation waits
for the host has a number reserved, which all requests for that path share; committing gives the
path its number.
-/

namespace Holonomy.Fuse

open Foundation

/-! ## Requests of the file system in user space

The kernel of an emulated machine asks for files with frames: a header of forty bytes, little-endian
words and names that end in a zero byte.
-/

/-- What a name in the file system stands for. -/
inductive EntryKind where
  | directory
  | file
  | symlink
  deriving DecidableEq

/-- The error number of frames that are not well formed. -/
def invalid : ℕ := 5

/-- The error number of fields that are not supported. -/
def unsupported : ℕ := 95

/-- The number of an error that was thrown, from the number that it carries. -/
def errno (carried : Option ℤ) : ℕ :=
  match carried with
  | some value => if 0 < value ∧ value ≤ 4095 then value.toNat else 5
  | none => 5

/-- The numbers of the operations. -/
structure V86FuseOperationsV1 where
  access : ℕ := 34
  create : ℕ := 35
  flush : ℕ := 25
  getattr : ℕ := 3
  init : ℕ := 26
  lookup : ℕ := 1
  mkdir : ℕ := 9
  openFile : ℕ := 14
  opendir : ℕ := 27
  read : ℕ := 15
  readdir : ℕ := 28
  release : ℕ := 18
  releasedir : ℕ := 29
  rename : ℕ := 12
  rmdir : ℕ := 11
  fsync : ℕ := 20
  fsyncdir : ℕ := 30
  setattr : ℕ := 4
  statfs : ℕ := 17
  unlink : ℕ := 10
  write : ℕ := 16

def operation : V86FuseOperationsV1 := {}

/-- The word that some bytes spell, the least significant byte first. -/
def littleEndian : List UInt8 → ℕ
  | [] => 0
  | byte :: bytes => byte.toNat + 256 * littleEndian bytes

def unsigned (bytes : List UInt8) (offset width : ℕ) : ℕ :=
  littleEndian ((bytes.drop offset).take width)

def signed (bytes : List UInt8) (offset : ℕ) : ℤ :=
  let value := unsigned bytes offset 8
  if value < 2 ^ 63 then value else value - 2 ^ 64

/-- A request of the kernel. -/
structure FuseRequest where
  body : List UInt8
  nodeId : ℕ
  opcode : ℕ
  pid : ℕ
  unique : ℕ

/-- The request in a frame, unless the frame is malformed. -/
def decodeV86FuseRequestV1 (payload : List UInt8) : Option FuseRequest :=
  if payload.length < 40 ∨ payload.length > 128 * 1024 then none
  else if unsigned payload 0 4 ≠ payload.length ∨ unsigned payload 8 8 = 0 then none
  else some ⟨payload.drop 40, unsigned payload 16 8, unsigned payload 4 4, unsigned payload 32 4,
    unsigned payload 8 8⟩

def fuseBodyViewV1 (body : List UInt8) (minimum : ℕ) : Except ℕ (List UInt8) :=
  if body.length < minimum then .error invalid else .ok body

def exactBodyView (body : List UInt8) (length : ℕ) : Except ℕ (List UInt8) :=
  if body.length ≠ length then .error invalid else .ok body

def decodeV86FuseAccessV1 (body : List UInt8) : Except ℕ ℕ := do
  let view ← exactBodyView body 8
  if unsigned view 0 4 > 7 ∨ unsigned view 4 4 ≠ 0 then .error invalid
  else .ok (unsigned view 0 4)

/-- The handle to synchronize, and whether its data alone. -/
def decodeV86FuseFsyncV1 (body : List UInt8) : Except ℕ (ℕ × Bool) := do
  let view ← exactBodyView body 16
  if unsigned view 8 4 > 1 ∨ unsigned view 12 4 ≠ 0 then .error invalid
  else .ok (unsigned view 0 8, unsigned view 8 4 = 1)

/-- A time to set. -/
inductive TimeChange where
  | omit
  | now
  | set (seconds nanoseconds : ℕ)
  deriving DecidableEq

/-- What attribute to change. -/
inductive AttributeChange where
  | mode (mode : ℕ) (modeKind : Option EntryKind)
  | size (size : ℕ)
  | times (atime mtime : TimeChange)
  deriving DecidableEq

def validTimestamp (seconds : ℤ) (nanoseconds : ℕ) : Except ℕ TimeChange :=
  if seconds < 0 ∨ seconds > 253402300799 ∨ nanoseconds ≥ 1000000000 then .error invalid
  else .ok (.set seconds.toNat nanoseconds)

def decodeV86FuseSetattrV1 (body : List UInt8) : Except ℕ (AttributeChange × Option ℕ) := do
  let view ← exactBodyView body 88
  let valid := unsigned view 0 4
  let has (bit : ℕ) : Bool := valid.testBit bit
  if unsigned view 4 4 ≠ 0 ∨ unsigned view 48 8 ≠ 0 ∨ unsigned view 64 4 ≠ 0 ∨
      unsigned view 72 4 ≠ 0 ∨ unsigned view 76 4 ≠ 0 ∨ unsigned view 80 4 ≠ 0 ∨
      unsigned view 84 4 ≠ 0 then .error invalid
  -- The bits: mode 0, size 3, times 4 and 5, handle 6, the present times 7 and 8, lock owner 9.
  else if valid = 0 ∨ has 1 ∨ has 2 ∨ valid ≥ 2 ^ 10 then .error unsupported
  else
    let hasMode := has 0
    let hasSize := has 3
    let hasTime := has 4 || has 5
    if hasMode.toNat + hasSize.toNat + hasTime.toNat ≠ 1 ∨ (has 7 ∧ ¬ has 4) ∨
        (has 8 ∧ ¬ has 5) ∨ (has 9 ∧ ¬ hasSize) then .error unsupported
    else if (¬ has 6 ∧ unsigned view 8 8 ≠ 0) ∨ (¬ has 9 ∧ unsigned view 24 8 ≠ 0) ∨
        (¬ has 4 ∧ (unsigned view 32 8 ≠ 0 ∨ unsigned view 56 4 ≠ 0)) ∨
        (¬ has 5 ∧ (unsigned view 40 8 ≠ 0 ∨ unsigned view 60 4 ≠ 0)) then .error invalid
    else
      let handleId := if has 6 then some (unsigned view 8 8) else none
      let rawMode := unsigned view 68 4
      let type := rawMode &&& 0o170000
      if hasMode then
        if rawMode ≠ type + (rawMode &&& 0o777) ∨
            (type ≠ 0 ∧ type ≠ 0o100000 ∧ type ≠ 0o040000) then .error unsupported
        else if unsigned view 16 8 ≠ 0 ∨ unsigned view 24 8 ≠ 0 ∨ unsigned view 32 8 ≠ 0 ∨
            unsigned view 40 8 ≠ 0 ∨ unsigned view 56 4 ≠ 0 ∨ unsigned view 60 4 ≠ 0 then
          .error invalid
        else
          let modeKind : Option EntryKind :=
            if type = 0 then none else if type = 0o040000 then some .directory else some .file
          .ok (.mode (rawMode &&& 0o777) modeKind, handleId)
      else if rawMode ≠ 0 then .error invalid
      else if hasSize then
        if unsigned view 16 8 > 9007199254740991 ∨ unsigned view 32 8 ≠ 0 ∨
            unsigned view 40 8 ≠ 0 ∨ unsigned view 56 4 ≠ 0 ∨ unsigned view 60 4 ≠ 0 then
          .error invalid
        else .ok (.size (unsigned view 16 8), handleId)
      else if unsigned view 16 8 ≠ 0 ∨ unsigned view 24 8 ≠ 0 then .error invalid
      else
        let atime ← if has 4 then validTimestamp (signed view 32) (unsigned view 56 4)
          else .ok .omit
        let mtime ← if has 5 then validTimestamp (signed view 40) (unsigned view 60 4)
          else .ok .omit
        .ok (.times (if has 7 then .now else atime) (if has 8 then .now else mtime), handleId)

def fuseNameV1 (body : List UInt8) (offset : ℕ) : Except ℕ Text :=
  let bytes := body.drop offset
  if bytes.length < 2 ∨ bytes.getLast? ≠ some 0 ∨ 0 ∈ bytes.dropLast then .error invalid
  else
    match decodeUtf8 bytes.dropLast with
    | none => .error invalid
    | some name =>
      if name = [] ∨ name = js "." ∨ name = js ".." ∨ 47 ∈ name ∨ name.length > 255 then
        .error invalid
      else .ok name

def pieces (start : List UInt8) : List UInt8 → List (List UInt8) × List UInt8
  | [] => ([], start)
  | byte :: bytes =>
    if byte ≠ 0 then pieces (start ++ [byte]) bytes
    else
      let rest := pieces [] bytes
      ((start ++ [byte]) :: rest.1, rest.2)

def fuseNamesV1 (body : List UInt8) (offset : ℕ) : Except ℕ (Text × Text) :=
  match pieces [] (body.drop offset) with
  | ([first, second], []) => do
    let former ← fuseNameV1 first 0
    let latter ← fuseNameV1 second 0
    .ok (former, latter)
  | _ => .error invalid

inductive HostValue where
  | json (value : JsonValue)
  | bytes (value : List UInt8)

namespace HostValue

/-- The host answered nothing. -/
def isNull : HostValue → Bool
  | json .null => true
  | _ => false

def field (value : HostValue) (name : Text) : Option JsonValue :=
  match value with
  | json (.object members) => (members.find? fun entry => entry.1 = name).map Prod.snd
  | _ => none

def text : HostValue → Option Text
  | json (.string value) => some value
  | _ => none

end HostValue

def wholeNumber (value : JsonValue) (least most : ℤ) : Option ℤ :=
  match value with
  | .number number =>
    if number.den = 1 ∧ least ≤ number.num ∧ number.num ≤ most then some number.num else none
  | _ => none

/-- The file type of a mode. -/
def formatOf (kind : EntryKind) : ℕ := if kind = .directory then 0o040000 else 0o100000

def isNanoseconds (value : Text) : Bool :=
  let digits := if value.head? = some 45 then value.tail else value
  value == js "0" ||
    (digits.all fun unit => 48 ≤ unit && unit ≤ 57) && digits.head? != some 48 &&
      digits.length ≥ 1 && digits.length ≤ 21

/-- What the host tells of a file or directory. -/
structure Metadata where
  kind : EntryKind
  size : ℕ
  mode : ℕ
  atimeNs : Text
  mtimeNs : Text
  ctimeNs : Text
  deriving DecidableEq

def metadata (value : HostValue) : Except ℕ Metadata :=
  let read : Option Metadata := do
    let kind : EntryKind ← match value.field (js "kind") with
      | some (.string name) =>
        if name = js "directory" then some .directory
        else if name = js "file" then some .file else none
      | _ => none
    let size ← wholeNumber (← value.field (js "size")) 0 9007199254740991
    let mode ← wholeNumber (← value.field (js "mode")) 0 0o177777
    let time (name : Text) : Option Text :=
      match value.field name with
      | some (.string time) => if isNanoseconds time then some time else none
      | _ => none
    let atimeNs ← time (js "atimeNs")
    let mtimeNs ← time (js "mtimeNs")
    let ctimeNs ← time (js "ctimeNs")
    if mode.toNat &&& 0o170000 = formatOf kind then
      some ⟨kind, size.toNat, mode.toNat, atimeNs, mtimeNs, ctimeNs⟩
    else none
  match read with
  | some found => .ok found
  | none => .error 5

structure DirectoryValue where
  kind : EntryKind
  name : Text
  deriving DecidableEq

/-- A listed entry. -/
def directoryValue (value : JsonValue) : Option DirectoryValue := do
  let name : Text ← match HostValue.field (.json value) (js "name") with
    | some (.string name) => some name
    | _ => none
  match HostValue.field (.json value) (js "kind") with
  | some (.string kind) =>
    if kind = js "directory" then some ⟨.directory, name⟩
    else if kind = js "file" then some ⟨.file, name⟩
    else if kind = js "symlink" then some ⟨.symlink, name⟩
    else none
  | _ => none

def handleToken (value : HostValue) : Option Text :=
  match value.field (js "handle") with
  | some (.string token) => some token
  | _ => none

def acceptable (token : Text) : Bool := 0 < token.length && token.length ≤ 256

def openedDirectory (value : HostValue) : Option (List DirectoryValue) := do
  let token ← handleToken value
  match value with
  | .json (.object members) =>
    match value.field (js "entries") with
    | some (.array items) =>
      if (members.map Prod.fst).dedup.length = 2 ∧ acceptable token ∧ items.length ≤ 1024 then
        items.mapM directoryValue
      else none
    | _ => none
  | _ => none

/-- The path of the first inode. -/
def rootPath : Text := js "/workspace"

/-- A number that is reserved for a path, and how many requests hold it. -/
structure PendingInode where
  id : ℕ
  users : ℕ
  deriving DecidableEq

structure Reservation where
  path : Text
  id : ℕ
  deriving DecidableEq

/-- The tables of inodes. -/
structure Inodes where
  inodes : OrderedMap ℕ Text
  inodeKinds : OrderedMap ℕ EntryKind
  inodeIds : OrderedMap Text ℕ
  pendingInodes : OrderedMap Text PendingInode
  nextInode : ℕ

/-- The path is some path or lies below it. -/
def within (path value : Text) : Bool := value == path || (path ++ [47]).isPrefixOf value

namespace Inodes

/-- The tables at first. -/
def new : Inodes where
  inodes := OrderedMap.empty.set 1 rootPath
  inodeKinds := OrderedMap.empty.set 1 .directory
  inodeIds := OrderedMap.empty.set rootPath 1
  pendingInodes := .empty
  nextInode := 2

variable (tables : Inodes)

/-- The tables of a closed environment. -/
def clear : Inodes :=
  { tables with
    inodes := .empty, inodeKinds := .empty, inodeIds := .empty, pendingInodes := .empty }

def setKind (id : ℕ) (kind : EntryKind) : Inodes :=
  { tables with inodeKinds := tables.inodeKinds.set id kind }

def reservedId (path : Text) : ℕ :=
  ((tables.pendingInodes.get? path).map PendingInode.id).getD tables.nextInode

def reserveInode (closed : Bool) (path : Text) : Except ℕ (Reservation × Inodes) :=
  if closed then .error 9
  else
    match tables.pendingInodes.get? path with
    | some pending => .ok (⟨path, pending.id⟩, { tables with
        pendingInodes := tables.pendingInodes.set path
          { pending with users := pending.users + 1 } })
    | none =>
      if tables.inodeIds.get? path = none ∧
          tables.inodes.size + tables.pendingInodes.size ≥ 4096 then .error 28
      else .ok (⟨path, tables.nextInode⟩, { tables with
        pendingInodes := tables.pendingInodes.set path ⟨tables.nextInode, 1⟩
        nextInode := tables.nextInode + 1 })

/-- Give up a reservation. -/
def releaseInode (reservation : Reservation) : Inodes :=
  match tables.pendingInodes.get? reservation.path with
  | some pending =>
    if pending.id ≠ reservation.id then tables
    else if pending.users = 1 then
      { tables with pendingInodes := tables.pendingInodes.delete reservation.path }
    else { tables with
      pendingInodes :=
        tables.pendingInodes.set reservation.path { pending with users := pending.users - 1 } }
  | none => tables

def enter (path : Text) (id : ℕ) : Inodes :=
  { tables with inodeIds := tables.inodeIds.set path id, inodes := tables.inodes.set id path }

def commit (closed : Bool) (reservation : Reservation) : Except ℕ (ℕ × Inodes) :=
  if closed then .error 9
  else
    let id := (tables.inodeIds.get? reservation.path).getD reservation.id
    .ok (id, (tables.enter reservation.path id).releaseInode reservation)

def inode (closed : Bool) (path : Text) (kind : EntryKind) : Except ℕ (ℕ × Inodes) :=
  match tables.inodeIds.get? path with
  | some existing => .ok (existing, tables.setKind existing kind)
  | none => do
    let (reservation, reserved) ← tables.reserveInode closed path
    let (id, entered) ← reserved.commit closed reservation
    .ok (id, entered.setKind id kind)

def forget (path : Text) (id : ℕ) : Inodes :=
  { tables with
    inodeIds := tables.inodeIds.delete path
    inodes := tables.inodes.delete id
    inodeKinds := tables.inodeKinds.delete id }

def forgetPath (path : Text) : Inodes :=
  (tables.inodeIds.entries.filter fun entry => within path entry.1).foldl
    (fun tables entry => tables.forget entry.1 entry.2) tables

def move (path target : Text) (id : ℕ) : Inodes :=
  { tables with
    inodeIds := (tables.inodeIds.delete path).set target id
    inodes := tables.inodes.set id target }

def renamePath (source target : Text) : Inodes :=
  (tables.inodeIds.entries.filter fun entry => within source entry.1).foldl
    (fun tables entry => tables.move entry.1 (target ++ entry.1.drop source.length) entry.2) tables

end Inodes

structure DirectoryEntry where
  kind : EntryKind
  name : Text
  path : Text
  deriving DecidableEq

/-- An entry as the kernel reads it. -/
structure DirectoryPart where
  inode : ℕ
  next : ℕ
  name : List UInt8
  kind : EntryKind
  deriving DecidableEq

/-- The bytes that an entry takes. -/
def DirectoryPart.byteLength (part : DirectoryPart) : ℕ := (24 + part.name.length + 7) / 8 * 8

namespace Inodes

/-- The kernel cannot read the name. -/
def Unreadable (name : List UInt8) : Prop := name.length = 0 ∨ name.length > 255 ∨ 0 ∈ name
  deriving Decidable

/-- All entries with their inodes; entries in front of one that fails have got theirs by then. -/
def directoryParts (closed : Bool) :
    List DirectoryEntry → ℕ → Inodes → Inodes × Except ℕ (List DirectoryPart)
  | [], _, tables => (tables, .ok [])
  | entry :: rest, index, tables =>
    let name := encodeUtf8 entry.name
    if Unreadable name then (tables, .error invalid)
    else
      match tables.inode closed entry.path entry.kind with
      | .error number => (tables, .error number)
      | .ok (id, entered) =>
        let later := directoryParts closed rest (index + 1) entered
        (later.1, later.2.map fun parts => ⟨id, index + 1, name, entry.kind⟩ :: parts)

def selectParts : List DirectoryPart → ℕ → List DirectoryPart
  | [], _ => []
  | part :: rest, room =>
    if part.byteLength > room then [] else part :: selectParts rest (room - part.byteLength)

/-- What the kernel reads of a directory from some place on. -/
def encodeV86FuseDirectoryV1 (closed : Bool) (entries : List DirectoryEntry) (offset maximum : ℕ)
    (tables : Inodes) : Inodes × Except ℕ (List DirectoryPart) :=
  if offset > 9007199254740991 then (tables, .error invalid)
  else
    let parts := directoryParts closed entries 0 tables
    (parts.1, parts.2.map fun parts => selectParts (parts.drop offset) maximum)

end Inodes

section Tables

variable {tables : Inodes}

def Inodes.Inverse (tables : Inodes) : Prop :=
  ∀ id path, tables.inodes.get? id = some path ↔ tables.inodeIds.get? path = some id

def Inodes.Free (tables : Inodes) (path : Text) (id : ℕ) : Prop :=
  tables.inodeIds.get? path = none → tables.inodes.get? id = none ∧ tables.inodes.size < 4096

instance (path : Text) (id : ℕ) : Decidable (tables.Free path id) :=
  inferInstanceAs (Decidable (_ → _))

namespace Inodes

variable {closed : Bool} {path : Text} {reservation : Reservation} {id : ℕ} {after other : Inodes}
  {kind : EntryKind}

@[simp]
theorem inodes_setKind (id : ℕ) (kind : EntryKind) : (tables.setKind id kind).inodes =
    tables.inodes := rfl

@[simp]
theorem inodeIds_setKind (id : ℕ) (kind : EntryKind) : (tables.setKind id kind).inodeIds =
    tables.inodeIds := rfl

@[simp]
theorem inodes_releaseInode (reservation : Reservation) :
    (tables.releaseInode reservation).inodes = tables.inodes := by
  unfold releaseInode
  split
  · split
    · rfl
    · split
      · rfl
      · rfl
  · rfl

@[simp]
theorem inodeIds_releaseInode (reservation : Reservation) :
    (tables.releaseInode reservation).inodeIds = tables.inodeIds := by
  unfold releaseInode
  split
  · split
    · rfl
    · split
      · rfl
      · rfl
  · rfl

theorem reserveInode_ok {reserved : Inodes}
    (made : tables.reserveInode closed path = .ok (reservation, reserved)) :
    reservation = ⟨path, tables.reservedId path⟩ ∧ reserved.inodes = tables.inodes ∧
      reserved.inodeIds = tables.inodeIds := by
  unfold reserveInode at made
  unfold reservedId
  split at made
  · cases made
  · split at made
    · rename_i pending found
      cases made
      rw [found]
      exact ⟨rfl, rfl, rfl⟩
    · rename_i found
      split at made
      · cases made
      · cases made
        rw [found]
        exact ⟨rfl, rfl, rfl⟩

theorem commit_ok (made : tables.commit closed reservation = .ok (id, after)) :
    id = (tables.inodeIds.get? reservation.path).getD reservation.id ∧
      after.inodes = (tables.enter reservation.path id).inodes ∧
      after.inodeIds = (tables.enter reservation.path id).inodeIds := by
  unfold commit at made
  split at made
  · cases made
  · cases made
    exact ⟨rfl, inodes_releaseInode _, inodeIds_releaseInode _⟩

theorem Inverse.of_eq (inverse : tables.Inverse) (inodes : other.inodes = tables.inodes)
    (inodeIds : other.inodeIds = tables.inodeIds) : other.Inverse := by
  intro id path
  rw [inodes, inodeIds]
  exact inverse id path

theorem inverse_new : Inodes.new.Inverse := by
  intro id path
  simp only [new, OrderedMap.get?_set, OrderedMap.get?_empty]
  constructor
  · intro found
    split at found
    · rename_i first
      rw [Option.some.injEq] at found
      rw [if_pos found.symm, first]
    · cases found
  · intro found
    split at found
    · rename_i root
      rw [Option.some.injEq] at found
      rw [if_pos found.symm, root]
    · cases found

theorem inverse_clear : tables.clear.Inverse := by
  intro id path
  simp only [clear, OrderedMap.get?_empty]
  exact ⟨fun found => (by cases found), fun found => (by cases found)⟩

theorem Inverse.size_eq (inverse : tables.Inverse) :
    tables.inodeIds.size = tables.inodes.size := by
  have swapped : (tables.inodes.entries.map Prod.swap).Perm tables.inodeIds.entries := by
    have nodup : (tables.inodes.entries.map Prod.swap).Nodup :=
      tables.inodes.distinct.of_map.map Prod.swap_injective
    refine (List.perm_ext_iff_of_nodup nodup tables.inodeIds.distinct.of_map).mpr fun entry => ?_
    have listed : entry ∈ tables.inodes.entries.map Prod.swap ↔
        (entry.2, entry.1) ∈ tables.inodes.entries := by
      constructor
      · intro here
        obtain ⟨other, otherIn, same⟩ := List.mem_map.mp here
        rw [← same]
        exact otherIn
      · intro here
        exact List.mem_map.mpr ⟨_, here, rfl⟩
    rw [listed, ← OrderedMap.get?_eq_some_iff, inverse,
      OrderedMap.get?_eq_some_iff]
  rw [OrderedMap.size, ← swapped.length_eq, List.length_map, OrderedMap.size]

theorem Inverse.enter {number : ℕ} (inverse : tables.Inverse) (small : tables.inodes.size ≤ 4096)
    (free : tables.Free path number) :
    (tables.enter path ((tables.inodeIds.get? path).getD number)).Inverse ∧
      (tables.enter path ((tables.inodeIds.get? path).getD number)).inodes.size ≤ 4096 := by
  cases known : tables.inodeIds.get? path with
  | some id =>
    have back := (inverse id path).mpr known
    rw [Option.getD_some]
    refine ⟨fun other place => ?_, ?_⟩
    · simp only [Inodes.enter, OrderedMap.get?_set]
      by_cases here : other = id
      · rw [if_pos here, here]
        by_cases there : place = path
        · rw [if_pos there, there]
          exact ⟨fun _ => rfl, fun _ => rfl⟩
        · rw [if_neg there, ← inverse, back]
      · rw [if_neg here]
        by_cases there : place = path
        · rw [if_pos there, inverse, there, known]
        · rw [if_neg there, inverse]
    · rw [Inodes.enter, OrderedMap.size_set_of_some back]
      exact small
  | none =>
    obtain ⟨unused, room⟩ := free known
    rw [Option.getD_none]
    refine ⟨fun other place => ?_, ?_⟩
    · simp only [Inodes.enter, OrderedMap.get?_set]
      by_cases here : other = number
      · rw [if_pos here, here]
        by_cases there : place = path
        · rw [if_pos there, there]
          exact ⟨fun _ => rfl, fun _ => rfl⟩
        · rw [if_neg there, ← inverse, unused]
          constructor
          · intro same
            exact absurd (Option.some.inj same).symm there
          · intro found
            cases found
      · rw [if_neg here]
        by_cases there : place = path
        · rw [if_pos there, inverse, there, known]
          constructor
          · intro found
            cases found
          · intro same
            exact absurd (Option.some.inj same).symm here
        · rw [if_neg there, inverse]
    · rw [Inodes.enter, OrderedMap.size_set_of_none unused]
      omega

structure Exact (tables : Inodes) : Prop where
  inverse : tables.Inverse
  small : tables.inodes.size ≤ 4096

/-- What no entering makes good again: two paths with one inode, or too many inodes. -/
def Spoiled (tables : Inodes) : Prop :=
  (∃ id first second, first ≠ second ∧ tables.inodeIds.get? first = some id ∧
    tables.inodeIds.get? second = some id) ∨ 4096 < tables.inodes.size

/-- Spoiled tables are not as they should be. -/
theorem Spoiled.not_exact (spoiled : tables.Spoiled) : ¬ tables.Exact := by
  intro exact'
  rcases spoiled with ⟨id, first, second, apart, left, right⟩ | many
  · have back := (exact'.inverse id first).mpr left
    rw [(exact'.inverse id second).mpr right, Option.some.injEq] at back
    exact apart back.symm
  · exact absurd exact'.small (Nat.not_le.mpr many)

theorem Exact.of_eq (exact' : tables.Exact) (inodes : other.inodes = tables.inodes)
    (inodeIds : other.inodeIds = tables.inodeIds) : other.Exact :=
  ⟨exact'.inverse.of_eq inodes inodeIds, by rw [inodes]; exact exact'.small⟩

theorem Spoiled.of_eq (spoiled : tables.Spoiled) (inodes : other.inodes = tables.inodes)
    (inodeIds : other.inodeIds = tables.inodeIds) : other.Spoiled := by
  unfold Spoiled
  rw [inodes, inodeIds]
  exact spoiled

theorem Exact.commit (exact' : tables.Exact) (free : tables.Free reservation.path reservation.id)
    (made : tables.commit closed reservation = .ok (id, after)) : after.Exact := by
  obtain ⟨number, inodes, inodeIds⟩ := commit_ok made
  have kept := exact'.inverse.enter exact'.small free
  rw [← number] at kept
  exact Exact.of_eq ⟨kept.1, kept.2⟩ inodes inodeIds

theorem Exact.spoil (exact' : tables.Exact) (taken : ¬ tables.Free reservation.path reservation.id)
    (made : tables.commit closed reservation = .ok (id, after)) : after.Spoiled := by
  obtain ⟨number, inodes, inodeIds⟩ := commit_ok made
  refine Spoiled.of_eq ?_ inodes inodeIds
  unfold Free at taken
  rw [Classical.not_imp, not_and_or] at taken
  obtain ⟨absent, full⟩ := taken
  rw [absent, Option.getD_none] at number
  by_cases unused : tables.inodes.get? id = none
  · have room := full.resolve_left fun used => used (number ▸ unused)
    refine .inr ?_
    rw [enter, OrderedMap.size_set_of_none unused]
    omega
  · obtain ⟨place, found⟩ := Option.ne_none_iff_exists'.mp unused
    have known := (exact'.inverse id place).mp found
    have apart : place ≠ reservation.path := by
      intro same
      rw [same, absent] at known
      cases known
    refine .inl ⟨id, place, reservation.path, apart, ?_, ?_⟩
    · rw [enter, OrderedMap.get?_set, if_neg apart]
      exact known
    · rw [enter, OrderedMap.get?_set, if_pos rfl]

theorem Spoiled.enter (spoiled : tables.Spoiled) (absent : tables.inodeIds.get? path = none) :
    (tables.enter path id).Spoiled := by
  rcases spoiled with ⟨number, first, second, apart, left, right⟩ | many
  · have stays : ∀ place, tables.inodeIds.get? place = some number →
        (tables.enter path id).inodeIds.get? place = some number := by
      intro place known
      have elsewhere : place ≠ path := by
        intro same
        rw [same, absent] at known
        cases known
      rw [Inodes.enter, OrderedMap.get?_set, if_neg elsewhere]
      exact known
    exact .inl ⟨number, first, second, apart, stays first left, stays second right⟩
  · refine .inr ?_
    cases found : tables.inodes.get? id with
    | none =>
      rw [Inodes.enter, OrderedMap.size_set_of_none found]
      omega
    | some place =>
      rw [Inodes.enter, OrderedMap.size_set_of_some found]
      exact many

theorem inode_ok (made : tables.inode closed path kind = .ok (id, after)) :
    (after.inodes = tables.inodes ∧ after.inodeIds = tables.inodeIds ∧
      tables.inodeIds.get? path ≠ none) ∨
    (tables.inodeIds.get? path = none ∧ ∃ committed,
      (tables.commit closed ⟨path, tables.reservedId path⟩ = .ok (id, committed)) ∧
      after.inodes = committed.inodes ∧ after.inodeIds = committed.inodeIds) := by
  unfold inode at made
  split at made
  · rename_i existing found
    cases made
    refine .inl ⟨rfl, rfl, ?_⟩
    rw [found]
    exact Option.some_ne_none _
  · rename_i absent
    refine .inr ⟨absent, ?_⟩
    cases reserves : tables.reserveInode closed path with
    | error number =>
      rw [reserves] at made
      cases made
    | ok pair =>
      obtain ⟨reservation, reserved⟩ := pair
      obtain ⟨mine, inodes, inodeIds⟩ := reserveInode_ok reserves
      have openNow : closed = false := by
        cases closed with
        | false => rfl
        | true => cases reserves
      rw [reserves] at made
      simp only [openNow, commit, mine, inodeIds, absent, Option.getD_none, bind, Except.bind,
        Bool.false_eq_true, if_false, pure, Except.pure] at made ⊢
      cases made
      refine ⟨_, rfl, ?_, ?_⟩
      · simp only [inodes_setKind, inodes_releaseInode, enter, inodes]
      · simp only [inodeIds_setKind, inodeIds_releaseInode, enter, inodeIds]

theorem Exact.inode (exact' : tables.Exact) (free : tables.Free path (tables.reservedId path))
    (made : tables.inode closed path kind = .ok (id, after)) : after.Exact := by
  rcases inode_ok made with ⟨inodes, inodeIds, _⟩ | ⟨_, committed, commits, inodes, inodeIds⟩
  · exact exact'.of_eq inodes inodeIds
  · exact (exact'.commit free commits).of_eq inodes inodeIds

theorem Exact.spoil_inode (exact' : tables.Exact)
    (taken : ¬ tables.Free path (tables.reservedId path))
    (made : tables.inode closed path kind = .ok (id, after)) : after.Spoiled := by
  rcases inode_ok made with ⟨_, _, present⟩ | ⟨_, committed, commits, inodes, inodeIds⟩
  · exact absurd (fun absent => absurd absent present) taken
  · exact (exact'.spoil taken commits).of_eq inodes inodeIds

theorem Spoiled.inode (spoiled : tables.Spoiled)
    (made : tables.inode closed path kind = .ok (id, after)) : after.Spoiled := by
  rcases inode_ok made with ⟨inodes, inodeIds, _⟩ | ⟨absent, committed, commits, inodes, inodeIds⟩
  · exact spoiled.of_eq inodes inodeIds
  · obtain ⟨_, entered, ids⟩ := commit_ok commits
    exact (spoiled.enter absent).of_eq (inodes.trans entered) (inodeIds.trans ids)

end Inodes

end Tables

end Holonomy.Fuse
