import Holonomy.Fuse.Inodes
import Holonomy.Foundation.Machine

/-!
# The bridge of one environment

A request runs up to its answer or to the first and only time it asks the host; then it waits until
the host answers, in any order and even after the environment was closed. A token that is refused
goes back to the host through a callback, and until the callback returns its request has not given
up its place.
-/

namespace Holonomy.Fuse

open Foundation

/-! ## The handles of a file system

A handle stands for a token that the host handed out, which goes back to the host when the handle is
retired.
-/

/-- An opened file or directory. -/
structure FileHandle where
  kind : EntryKind
  path : Text
  token : Text
  bytes : ℕ
  nodeId : ℕ
  entries : List DirectoryEntry
  deriving DecidableEq

/-- The table of handles, with what is counted of it. -/
structure Handles where
  handles : OrderedMap ℕ FileHandle
  pendingHandles : ℤ
  directoryEntries : ℤ
  directoryBytes : ℤ
  nextHandle : ℕ
  obtained : List Text
  released : List Text

namespace Handles

/-- The table at first. -/
def new : Handles where
  handles := .empty
  pendingHandles := 0
  directoryEntries := 0
  directoryBytes := 0
  nextHandle := 1
  obtained := []
  released := []

variable (files : Handles)

/-- The host hands out a token. -/
def receive (token : Text) : Handles := { files with obtained := files.obtained ++ [token] }

/-- A token goes back to the host. -/
def release (token : Text) : Handles := { files with released := files.released ++ [token] }

def reserveHandle (closed : Bool) : Except ℕ Handles :=
  if closed ∨ files.handles.size + files.pendingHandles ≥ 64 then .error 24
  else .ok { files with pendingHandles := files.pendingHandles + 1 }

/-- Give up a reserved place. -/
def unreserve : Handles := { files with pendingHandles := files.pendingHandles - 1 }

/-- Enter a handle under a new number. -/
def handleId (handle : FileHandle) : ℕ × Handles :=
  (files.nextHandle, { files with
    handles := files.handles.set files.nextHandle handle
    nextHandle := files.nextHandle + 1 })

def openDirectory (handle : FileHandle) : ℕ × Handles :=
  { files with
    directoryEntries := files.directoryEntries + handle.entries.length
    directoryBytes := files.directoryBytes + handle.bytes }.handleId handle

def retireHandle (id : ℕ) (handle : FileHandle) : Bool × Handles :=
  match files.handles.get? id with
  | none => (false, files)
  | some current =>
    if current.kind ≠ handle.kind ∨ current.token ≠ handle.token then (false, files)
    else
      let rest := { files with handles := files.handles.delete id }
      let counted :=
        if current.kind = .directory then
          { rest with
            directoryEntries := rest.directoryEntries - current.entries.length
            directoryBytes := rest.directoryBytes - current.bytes }
        else rest
      (true, counted.release current.token)

def renamePath (source target : Text) : Handles :=
  { files with handles := files.handles.mapValues fun handle =>
      if within source handle.path then
        { handle with path := target ++ handle.path.drop source.length }
      else handle }

def close : Handles :=
  let rest := files.handles.entries.foldl
    (fun files entry => (files.retireHandle entry.1 entry.2).2) files
  { rest with directoryEntries := 0, directoryBytes := 0 }

end Handles

section Accounting

def FileHandle.listed (handle : FileHandle) : ℤ :=
  if handle.kind = .directory then handle.entries.length else 0

def FileHandle.listedBytes (handle : FileHandle) : ℤ :=
  if handle.kind = .directory then handle.bytes else 0

def total (handles : OrderedMap ℕ FileHandle) (count : FileHandle → ℤ) : ℤ :=
  (handles.entries.map fun entry => count entry.2).sum

def tokens (handles : OrderedMap ℕ FileHandle) : List Text :=
  handles.entries.map fun entry => entry.2.token

/-- The counters count what is there, and every token that was handed out stands behind a handle or
went back, as often as it was handed out. -/
structure Handles.Accounted (files : Handles) : Prop where
  entries : files.directoryEntries = total files.handles FileHandle.listed
  bytes : files.directoryBytes = total files.handles FileHandle.listedBytes
  tokens : files.obtained.Perm (files.released ++ tokens files.handles)
  fresh : ∀ id handle, files.handles.get? id = some handle → id < files.nextHandle

variable {handles : OrderedMap ℕ FileHandle} {id : ℕ} {handle : FileHandle} {files : Handles}

theorem total_set (handle : FileHandle) (count : FileHandle → ℤ) (absent : handles.get? id = none) :
    total (handles.set id handle) count = total handles count + count handle := by
  rw [total, OrderedMap.entries_set absent, List.map_append, List.sum_append, List.map_singleton,
    List.sum_singleton, total]

theorem total_delete (count : FileHandle → ℤ) (present : handles.get? id = some handle) :
    total (handles.delete id) count = total handles count - count handle := by
  have parts := ((OrderedMap.perm_delete present).map fun entry => count entry.2).sum_eq
  rw [List.map_cons, List.sum_cons] at parts
  rw [total, total, parts]
  ring

theorem tokens_set (handle : FileHandle) (absent : handles.get? id = none) :
    tokens (handles.set id handle) = tokens handles ++ [handle.token] := by
  rw [tokens, OrderedMap.entries_set absent, List.map_append, List.map_singleton, tokens]

theorem tokens_delete (present : handles.get? id = some handle) :
    (tokens handles).Perm (handle.token :: tokens (handles.delete id)) :=
  (OrderedMap.perm_delete present).map fun entry : ℕ × FileHandle => entry.2.token

namespace Handles.Accounted

variable {files : Handles}

variable {handle : FileHandle}

theorem new : Handles.new.Accounted where
  entries := rfl
  bytes := rfl
  tokens := .refl _
  fresh id handle found := by cases found

section

variable (accounted : files.Accounted)

include accounted

theorem reserveHandle {closed : Bool} {reserved : Handles}
    (made : files.reserveHandle closed = .ok reserved) : reserved.Accounted := by
  unfold Handles.reserveHandle at made
  split at made
  · cases made
  · cases made
    exact ⟨accounted.entries, accounted.bytes, accounted.tokens, accounted.fresh⟩

theorem unreserve : files.unreserve.Accounted :=
  ⟨accounted.entries, accounted.bytes, accounted.tokens, accounted.fresh⟩

theorem refuse (token : Text) : ((files.receive token).release token).Accounted := by
  refine ⟨accounted.entries, accounted.bytes, ?_, accounted.fresh⟩
  change (files.obtained ++ [token]).Perm (files.released ++ [token] ++ Fuse.tokens files.handles)
  have known := accounted.tokens.append_right [token]
  rw [List.append_assoc] at known ⊢
  exact known.trans (List.perm_append_comm.append_left files.released)

theorem absent : files.handles.get? files.nextHandle = none := by
  cases found : files.handles.get? files.nextHandle with
  | none => rfl
  | some handle => exact absurd (accounted.fresh _ handle found) (lt_irrefl _)

theorem fresh_set (handle : FileHandle) :
    ∀ id other, (files.handles.set files.nextHandle handle).get? id = some other →
      id < files.nextHandle + 1 := by
  intro id other found
  rw [OrderedMap.get?_set] at found
  by_cases here : id = files.nextHandle
  · omega
  · rw [if_neg here] at found
    have below := accounted.fresh id other found
    omega

theorem tokens_handleId (handle : FileHandle) : (files.obtained ++ [handle.token]).Perm
      (files.released ++ Fuse.tokens (files.handles.set files.nextHandle handle)) := by
  rw [tokens_set handle accounted.absent, ← List.append_assoc]
  exact accounted.tokens.append_right [handle.token]

theorem openFile (file : handle.kind = .file) :
    ((files.receive handle.token).handleId handle).2.Accounted := by
  have noDirectory : handle.kind ≠ .directory := by
    rw [file]
    decide
  refine ⟨?_, ?_, accounted.tokens_handleId handle, accounted.fresh_set handle⟩
  · change files.directoryEntries = total (files.handles.set files.nextHandle handle) _
    rw [total_set handle _ accounted.absent, FileHandle.listed, if_neg noDirectory, add_zero]
    exact accounted.entries
  · change files.directoryBytes = total (files.handles.set files.nextHandle handle) _
    rw [total_set handle _ accounted.absent, FileHandle.listedBytes, if_neg noDirectory, add_zero]
    exact accounted.bytes

theorem openDirectory (directory : handle.kind = .directory) :
    ((files.receive handle.token).openDirectory handle).2.Accounted := by
  refine ⟨?_, ?_, accounted.tokens_handleId handle, accounted.fresh_set handle⟩
  · change files.directoryEntries + handle.entries.length =
      total (files.handles.set files.nextHandle handle) _
    rw [total_set handle _ accounted.absent, FileHandle.listed, if_pos directory, accounted.entries]
  · change files.directoryBytes + handle.bytes =
      total (files.handles.set files.nextHandle handle) _
    rw [total_set handle _ accounted.absent, FileHandle.listedBytes, if_pos directory,
      accounted.bytes]

theorem retireHandle (id : ℕ) (handle : FileHandle) :
    (files.retireHandle id handle).2.Accounted := by
  unfold Handles.retireHandle
  split
  · exact accounted
  · rename_i current present
    split
    · exact accounted
    · have moved : files.obtained.Perm
          (files.released ++ [current.token] ++ Fuse.tokens (files.handles.delete id)) := by
        rw [List.append_assoc]
        exact accounted.tokens.trans ((tokens_delete present).append_left files.released)
      have fresh : ∀ other left, (files.handles.delete id).get? other = some left →
          other < files.nextHandle := by
        intro other left found
        rw [OrderedMap.get?_delete] at found
        split at found
        · cases found
        · exact accounted.fresh other left found
      have fewer := total_delete FileHandle.listed present
      have fewerBytes := total_delete FileHandle.listedBytes present
      by_cases directory : current.kind = .directory
      · rw [FileHandle.listed, if_pos directory, ← accounted.entries] at fewer
        rw [FileHandle.listedBytes, if_pos directory, ← accounted.bytes] at fewerBytes
        simp only [if_pos directory]
        exact ⟨fewer.symm, fewerBytes.symm, moved, fresh⟩
      · rw [FileHandle.listed, if_neg directory, sub_zero, ← accounted.entries] at fewer
        rw [FileHandle.listedBytes, if_neg directory, sub_zero, ← accounted.bytes] at fewerBytes
        simp only [if_neg directory]
        exact ⟨fewer.symm, fewerBytes.symm, moved, fresh⟩

theorem renamePath (source target : Text) : (files.renamePath source target).Accounted := by
  have same : ∀ {β : Type} (read : FileHandle → β)
      (_ : ∀ handle path, read { handle with path } = read handle),
      (files.renamePath source target).handles.entries.map (fun entry => read entry.2) =
        files.handles.entries.map fun entry => read entry.2 := by
    intro β read blind
    rw [Handles.renamePath, OrderedMap.mapValues, List.map_map]
    refine List.map_congr_left fun entry _ => ?_
    simp only [Function.comp]
    split
    · exact blind entry.2 _
    · rfl
  refine ⟨?_, ?_, ?_, fun id handle found => ?_⟩
  · rw [total, same FileHandle.listed fun _ _ => rfl]
    exact accounted.entries
  · rw [total, same FileHandle.listedBytes fun _ _ => rfl]
    exact accounted.bytes
  · rw [Fuse.tokens, same FileHandle.token fun _ _ => rfl]
    exact accounted.tokens
  · rw [Handles.renamePath, OrderedMap.get?_mapValues, Option.map_eq_some_iff] at found
    obtain ⟨before, present, _⟩ := found
    exact accounted.fresh id before present

end

end Handles.Accounted

theorem Handles.handles_retireHandle (files : Handles) (id : ℕ) (handle : FileHandle) :
    (files.retireHandle id handle).2.handles = files.handles ∨
      (files.retireHandle id handle).2.handles = files.handles.delete id ∧
        files.handles.get? id ≠ none := by
  unfold Handles.retireHandle
  split
  · exact .inl rfl
  · rename_i current present
    split
    · exact .inl rfl
    · refine .inr ⟨?_, by rw [present]; exact Option.some_ne_none _⟩
      simp only
      split
      · rfl
      · rfl

theorem Handles.retire_list {entries : List (ℕ × FileHandle)} (accounted : files.Accounted)
    (distinct : (entries.map Prod.fst).Nodup)
    (known : ∀ entry ∈ entries, files.handles.get? entry.1 = some entry.2) :
    (entries.foldl (fun files entry => (files.retireHandle entry.1 entry.2).2) files).Accounted ∧
      ∀ id, (entries.foldl (fun files entry => (files.retireHandle entry.1 entry.2).2)
        files).handles.get? id =
          if id ∈ entries.map Prod.fst then none else files.handles.get? id := by
  induction entries generalizing files with
  | nil => exact ⟨accounted, fun id => rfl⟩
  | cons entry rest ih =>
    rw [List.map_cons, List.nodup_cons] at distinct
    have mine := known entry List.mem_cons_self
    have dropped : (files.retireHandle entry.1 entry.2).2.handles = files.handles.delete
        entry.1 := by
      unfold Handles.retireHandle
      simp only [mine, ne_eq, not_true_eq_false, or_self, if_false]
      split
      · rfl
      · rfl
    have after := ih (accounted.retireHandle entry.1 entry.2) distinct.2 fun other otherIn => by
      have elsewhere : other.1 ≠ entry.1 := by
        intro same
        exact distinct.1 (same ▸ List.mem_map_of_mem otherIn)
      rw [dropped, OrderedMap.get?_delete, if_neg elsewhere]
      exact known other (List.mem_cons_of_mem _ otherIn)
    refine ⟨after.1, fun id => ?_⟩
    rw [List.foldl_cons, after.2 id, dropped, OrderedMap.get?_delete, List.map_cons]
    by_cases here : id = entry.1
    · have first : id ∈ entry.1 :: rest.map Prod.fst := by
        rw [here]
        exact List.mem_cons_self
      rw [if_pos here, if_pos first, ite_self]
    · rw [if_neg here]
      by_cases later : id ∈ rest.map Prod.fst
      · rw [if_pos later, if_pos (List.mem_cons_of_mem _ later)]
      · have nowhere : id ∉ entry.1 :: rest.map Prod.fst := by
          rw [List.mem_cons, not_or]
          exact ⟨here, later⟩
        rw [if_neg later, if_neg nowhere]

theorem Handles.Accounted.close (accounted : files.Accounted) :
    files.close.Accounted ∧ files.close.handles.size = 0 := by
  have retired := Handles.retire_list accounted files.handles.distinct
    fun entry entryIn => OrderedMap.get?_eq_some_iff.mpr entryIn
  have gone : ∀ id, files.close.handles.get? id = none := by
    intro id
    have found := retired.2 id
    by_cases listed : id ∈ files.handles.entries.map Prod.fst
    · rw [if_pos listed] at found
      exact found
    · rw [if_neg listed, OrderedMap.get?_eq_none_iff.mpr listed] at found
      exact found
  have none : files.close.handles = .empty := by
    refine OrderedMap.ext (List.eq_nil_iff_forall_not_mem.mpr fun entry listed => ?_)
    have found := OrderedMap.get?_eq_some_iff.mpr listed
    rw [gone] at found
    cases found
  refine ⟨⟨?_, ?_, retired.1.tokens, retired.1.fresh⟩, by rw [none]; rfl⟩
  · rw [none]
    rfl
  · rw [none]
    rfl

end Accounting

/-- What the kernel is answered. -/
inductive Answer where
  | init
  | attr (nodeId : ℕ) (metadata : Metadata)
  | entry (nodeId : ℕ) (metadata : Metadata) (handleId : Option ℕ)
  | opened (handleId : ℕ)
  | result (body : List UInt8)
  | written (size : ℕ)
  | directory (parts : List DirectoryPart)
  | statfs

/-- A request that waits for the host, with what it does behind the answer. -/
inductive Waiting where
  | getattr (nodeId : ℕ) (path : Text)
  | access
  | setattr (nodeId : ℕ) (change : AttributeChange)
  | lookup (childPath : Text)
  | openFile (nodeId : ℕ) (target : Text) (inode : Option Reservation)
  | mkdir (inode : Reservation)
  | opendir (nodeId : ℕ) (path : Text)
  | read (size : ℕ)
  | write (size : ℕ)
  | release (handleId : ℕ) (handle : FileHandle)
  | unlink (childPath : Text)
  | rename (fromPath toPath : Text)
  | statfs
  | fsync
  deriving DecidableEq

/-- The request has a place for a handle reserved. -/
def Waiting.reserves : Waiting → Bool
  | openFile _ _ _ => true
  | opendir _ _ => true
  | _ => false

/-- How far a request comes without the host. -/
inductive Outcome where
  | answers (answer : Answer)
  | waits (waiting : Waiting)

/-- Who asks. -/
structure Common where
  executableId : Option Text
  processResourceId : Option Text
  processId : ℕ

/-- The state of the bridge. -/
structure V86FuseEnvironmentBridgeV1 where
  closed : Bool
  tables : Inodes
  files : Handles
  waiting : OrderedMap ℕ Waiting
  /-- The requests whose refused token is on its way back, with their errors. -/
  leaving : List (ℕ × ℕ)
  requests : ℕ
  answers : List (ℕ × Except ℕ Answer)

/-- The directory that a path lies in. -/
def parentOf (path : Text) : Text :=
  let stem := ((path.reverse.dropWhile fun unit => unit ≠ 47).drop 1).reverse
  if path = rootPath ∨ stem.length ≤ rootPath.length then rootPath else stem

namespace V86FuseEnvironmentBridgeV1

def new : V86FuseEnvironmentBridgeV1 where
  closed := false
  tables := .new
  files := .new
  waiting := .empty
  leaving := []
  requests := 0
  answers := []

variable (bridge : V86FuseEnvironmentBridgeV1)

def close : V86FuseEnvironmentBridgeV1 :=
  if bridge.closed then bridge
  else { bridge with closed := true, files := bridge.files.close, tables := bridge.tables.clear }

section Requests

variable (request : FuseRequest)

def setattr (path : Text) : Except ℕ Outcome := do
  let (change, handleId) ← decodeV86FuseSetattrV1 request.body
  let handle := handleId.bind bridge.files.handles.get?
  let fits (handle : FileHandle) : Bool :=
    handle.path == path && handle.nodeId == request.nodeId &&
      (match change with | .mode _ _ => true | _ => handle.kind == .file)
  if handleId.isSome ∧ ¬ handle.any fits then .error 9
  else
    let known := match handle with
      | some handle => some handle.kind
      | none => bridge.tables.inodeKinds.get? request.nodeId
    match change with
    | .mode _ (some kind) =>
      if some kind ≠ known then .error 22 else .ok (.waits (.setattr request.nodeId change))
    | _ => .ok (.waits (.setattr request.nodeId change))

/-- The offset of reading or writing, unless it is too large. -/
def safeOffset (view : List UInt8) : Except ℕ ℕ :=
  if unsigned view 8 8 > 9007199254740991 then .error 75 else .ok (unsigned view 8 8)

def read : Except ℕ Outcome := do
  let view ← fuseBodyViewV1 request.body 40
  if (bridge.files.handles.get? (unsigned view 0 8)).map FileHandle.kind ≠ some .file then .error 9
  else
    let _ ← safeOffset view
    let size := unsigned view 16 4
    if size > 64 * 1024 then .error 22 else .ok (.waits (.read size))

def write : Except ℕ Outcome := do
  let view ← fuseBodyViewV1 request.body 40
  let size := unsigned view 16 4
  if (bridge.files.handles.get? (unsigned view 0 8)).map FileHandle.kind ≠ some .file then .error 9
  else if size > 64 * 1024 ∨ request.body.length ≠ 40 + size then .error 22
  else
    let _ ← safeOffset view
    .ok (.waits (.write size))

def release : Except ℕ Outcome := do
  let view ← fuseBodyViewV1 request.body 8
  let handleId := unsigned view 0 8
  match bridge.files.handles.get? handleId with
  | none => .error 9
  | some handle =>
    if request.opcode = operation.release ∧ handle.kind = .file ∨
        request.opcode = operation.releasedir ∧ handle.kind = .directory then
      .ok (.waits (.release handleId handle))
    else .error 9

def rename (path : Text) : Except ℕ Outcome := do
  let view ← fuseBodyViewV1 request.body 10
  match bridge.tables.inodes.get? (unsigned view 0 8) with
  | none => .error 2
  | some destinationParent =>
    let (fromName, toName) ← fuseNamesV1 request.body 8
    .ok (.waits (.rename (path ++ 47 :: fromName) (destinationParent ++ 47 :: toName)))

def fsync (path : Text) : Except ℕ Outcome := do
  let (handleId, _) ← decodeV86FuseFsyncV1 request.body
  let kind : EntryKind := if request.opcode = operation.fsync then .file else .directory
  match bridge.files.handles.get? handleId with
  | none => .error 9
  | some handle =>
    if handle.kind ≠ kind ∨ handle.path ≠ path then .error 9 else .ok (.waits .fsync)

def flush (path : Text) : Except ℕ Outcome :=
  if request.body.length ≠ 24 ∨ unsigned request.body 8 4 ≠ 0 ∨ unsigned request.body 12 4 ≠ 0 then
    .error 5
  else
    match bridge.files.handles.get? (unsigned request.body 0 8) with
    | none => .error 9
    | some handle =>
      if handle.kind ≠ .file ∨ handle.path ≠ path then .error 9 else .ok (.answers (.result []))

/-- The requests that change nothing before the host answers. -/
def inquire (path : Text) : Except ℕ Outcome :=
  if request.opcode = operation.getattr then .ok (.waits (.getattr request.nodeId path))
  else if request.opcode = operation.access then do
    let _ ← decodeV86FuseAccessV1 request.body
    .ok (.waits .access)
  else if request.opcode = operation.setattr then bridge.setattr request path
  else if request.opcode = operation.lookup then do
    let name ← fuseNameV1 request.body 0
    .ok (.waits (.lookup (path ++ 47 :: name)))
  else if request.opcode = operation.read then bridge.read request
  else if request.opcode = operation.write then bridge.write request
  else if request.opcode = operation.release ∨ request.opcode = operation.releasedir then
    bridge.release request
  else if request.opcode = operation.unlink ∨ request.opcode = operation.rmdir then do
    let name ← fuseNameV1 request.body 0
    .ok (.waits (.unlink (path ++ 47 :: name)))
  else if request.opcode = operation.rename then bridge.rename request path
  else if request.opcode = operation.statfs then .ok (.waits .statfs)
  else if request.opcode = operation.fsync ∨ request.opcode = operation.fsyncdir then
    bridge.fsync request path
  else if request.opcode = operation.flush then bridge.flush request path
  else .error 38

def mkdir (path : Text) : V86FuseEnvironmentBridgeV1 × Except ℕ Outcome :=
  let reserves := do
    let _ ← fuseBodyViewV1 request.body 9
    let name ← fuseNameV1 request.body 8
    bridge.tables.reserveInode bridge.closed (path ++ 47 :: name)
  match reserves with
  | .error number => (bridge, .error number)
  | .ok (inode, tables) => ({ bridge with tables }, .ok (.waits (.mkdir inode)))

def openFile (path : Text) (create : Bool) : V86FuseEnvironmentBridgeV1 × Except ℕ Outcome :=
  match bridge.files.reserveHandle bridge.closed with
  | .error number => (bridge, .error number)
  | .ok files =>
    let reserves : Except ℕ (Text × Option Reservation × Inodes) := do
      let _ ← fuseBodyViewV1 request.body (if create then 17 else 8)
      if create then
        let name ← fuseNameV1 request.body 16
        let (inode, tables) ← bridge.tables.reserveInode bridge.closed (path ++ 47 :: name)
        .ok (path ++ 47 :: name, some inode, tables)
      else .ok (path, none, bridge.tables)
    match reserves with
    | .error number => ({ bridge with files := files.unreserve }, .error number)
    | .ok (target, inode, tables) =>
      ({ bridge with files, tables }, .ok (.waits (.openFile request.nodeId target inode)))

/-- Opening a directory: a place is reserved. -/
def opendir (path : Text) : V86FuseEnvironmentBridgeV1 × Except ℕ Outcome :=
  match bridge.files.reserveHandle bridge.closed with
  | .error number => (bridge, .error number)
  | .ok files =>
    match fuseBodyViewV1 request.body 8 with
    | .error number => ({ bridge with files := files.unreserve }, .error number)
    | .ok _ => ({ bridge with files }, .ok (.waits (.opendir request.nodeId path)))

/-- The directory that is read, with the place and the room for its entries. -/
def readdirHandle : Except ℕ (FileHandle × ℕ × ℕ) := do
  let view ← fuseBodyViewV1 request.body 40
  match bridge.files.handles.get? (unsigned view 0 8) with
  | none => .error 9
  | some handle =>
    if handle.kind ≠ .directory then .error 9
    else .ok (handle, unsigned view 8 8, unsigned view 16 4)

def readdir : V86FuseEnvironmentBridgeV1 × Except ℕ Outcome :=
  match bridge.readdirHandle request with
  | .error number => (bridge, .error number)
  | .ok (handle, offset, maximum) =>
    let encoded := Inodes.encodeV86FuseDirectoryV1 bridge.closed handle.entries offset maximum
      bridge.tables
    ({ bridge with tables := encoded.1 }, encoded.2.map fun parts => .answers (.directory parts))

def handleRequest (common : Common) : V86FuseEnvironmentBridgeV1 × Except ℕ Outcome :=
  if request.opcode = operation.init then (bridge, .ok (.answers .init))
  else if common.executableId = none ∨ common.processResourceId = none ∨ common.processId = 0 then
    (bridge, .error 13)
  else
    match bridge.tables.inodes.get? request.nodeId with
    | none => (bridge, .error 2)
    | some path =>
      if request.opcode = operation.mkdir then bridge.mkdir request path
      else if request.opcode = operation.openFile then bridge.openFile request path false
      else if request.opcode = operation.create then bridge.openFile request path true
      else if request.opcode = operation.opendir then bridge.opendir request path
      else if request.opcode = operation.readdir then bridge.readdir request
      else (bridge, bridge.inquire request path)

def releaseWithoutProcess : V86FuseEnvironmentBridgeV1 × Except ℕ Outcome :=
  match fuseBodyViewV1 request.body 8 with
  | .error number => (bridge, .error number)
  | .ok view =>
    let handleId := unsigned view 0 8
    let expectedKind : EntryKind :=
      if request.opcode = operation.release then .file else .directory
    match bridge.files.handles.get? handleId with
    | none => (bridge, .error 9)
    | some handle =>
      if handle.kind ≠ expectedKind ∨ handle.nodeId ≠ request.nodeId then (bridge, .error 9)
      else
        let retired := bridge.files.retireHandle handleId handle
        ({ bridge with files := retired.2 },
          if retired.1 then .ok (.answers (.result [])) else .error 9)

def handle (attributed : Except (Option ℤ) Common) :
    V86FuseEnvironmentBridgeV1 × Except ℕ Outcome :=
  if bridge.closed then (bridge, .error 9)
  else if request.pid = 0 ∧
      (request.opcode = operation.release ∨ request.opcode = operation.releasedir) then
    bridge.releaseWithoutProcess request
  else
    match attributed with
    | .error carried => (bridge, .error (errno carried))
    | .ok common => bridge.handleRequest request common

end Requests

section Answers

def answered (outcome : Except (Option ℤ) HostValue) : Except ℕ HostValue :=
  outcome.mapError errno

def reply (waiting : Waiting) (value : HostValue) : Except ℕ Answer :=
  match waiting with
  | .access => if value.isNull then .ok (.result []) else .error 5
  | .fsync => if value.isNull then .ok (.result []) else .error 5
  | .setattr nodeId change => do
    let found ← metadata value
    match change with
    | .mode mode modeKind =>
      if found.mode &&& 0o777 ≠ mode ∨ (modeKind.isSome ∧ modeKind ≠ some found.kind) then .error 5
      else .ok (.attr nodeId found)
    | _ => .ok (.attr nodeId found)
  | .read size =>
    match value with
    | .bytes bytes => if bytes.length > size then .error 5 else .ok (.result bytes)
    | _ => .error 5
  | .write size =>
    match value with
    | .json number =>
      match wholeNumber number 0 size with
      | some written => .ok (.written written.toNat)
      | none => .error 5
    | _ => .error 5
  | _ => .ok .statfs

/-- Behind the attributes of an inode. -/
def getattrAnswered (nodeId : ℕ) (path : Text) (value : HostValue) :
    V86FuseEnvironmentBridgeV1 × Except ℕ Answer :=
  match metadata value with
  | .error number => (bridge, .error number)
  | .ok found =>
    let known := bridge.tables.inodes.get? nodeId
    ({ bridge with
        tables := if known = some path then bridge.tables.setKind nodeId found.kind
          else bridge.tables }, .ok (.attr nodeId found))

def lookupAnswered (childPath : Text) (value : HostValue) :
    V86FuseEnvironmentBridgeV1 × Except ℕ Answer :=
  match metadata value with
  | .error number => (bridge, .error number)
  | .ok found =>
    match bridge.tables.inode bridge.closed childPath found.kind with
    | .error number => (bridge, .error number)
    | .ok (nodeId, tables) => ({ bridge with tables }, .ok (.entry nodeId found none))

def makeDirectory (inode : Reservation) (outcome : Except ℕ HostValue) :
    Except ℕ (ℕ × Metadata × Inodes) := do
  let value ← outcome
  let found ← metadata value
  let (nodeId, tables) ← bridge.tables.commit bridge.closed inode
  .ok (nodeId, found, tables.setKind nodeId found.kind)

def mkdirAnswered (inode : Reservation) (outcome : Except ℕ HostValue) :
    V86FuseEnvironmentBridgeV1 × Except ℕ Answer :=
  match bridge.makeDirectory inode outcome with
  | .error number =>
    ({ bridge with tables := bridge.tables.releaseInode inode }, .error number)
  | .ok (nodeId, found, tables) => ({ bridge with tables }, .ok (.entry nodeId found none))

/-- A request that had a place reserved fails without a token. -/
def refuse (inode : Option Reservation) (number : ℕ) :
    V86FuseEnvironmentBridgeV1 × Except ℕ (Option Answer) :=
  ({ bridge with
      tables := inode.elim bridge.tables bridge.tables.releaseInode
      files := bridge.files.unreserve }, .error number)

/-- A request that had a place reserved fails with a token, which goes back to the host; the place
is given up when the host has it. -/
def refuseToken (serial : ℕ) (inode : Option Reservation) (token : Text) (number : ℕ) :
    V86FuseEnvironmentBridgeV1 × Except ℕ (Option Answer) :=
  ({ bridge with
      tables := inode.elim bridge.tables bridge.tables.releaseInode
      files := (bridge.files.receive token).release token
      leaving := (serial, number) :: bridge.leaving }, .ok none)

def openedInode (nodeId : ℕ) (inode : Option Reservation) (value : HostValue) (token : Text) :
    Except ℕ (ℕ × Option Metadata × Inodes) :=
  if ¬ acceptable token then .error 5
  else if bridge.closed then .error 9
  else
    match inode with
    | none => .ok (nodeId, none, bridge.tables)
    | some reservation => do
      let found ← metadata value
      let (id, tables) ← bridge.tables.commit bridge.closed reservation
      .ok (id, some found, tables.setKind id found.kind)

def openAnswered (serial nodeId : ℕ) (target : Text) (inode : Option Reservation)
    (outcome : Except ℕ HostValue) : V86FuseEnvironmentBridgeV1 × Except ℕ (Option Answer) :=
  match outcome with
  | .error number => bridge.refuse inode number
  | .ok value =>
    match if inode.isSome then handleToken value else value.text with
    | none => bridge.refuse inode 5
    | some token =>
      match bridge.openedInode nodeId inode value token with
      | .error number => bridge.refuseToken serial inode token number
      | .ok (id, found, tables) =>
        let entered := (bridge.files.receive token).handleId ⟨.file, target, token, 0, id, []⟩
        ({ bridge with tables, files := entered.2.unreserve },
          .ok (some (found.elim (.opened entered.1) fun found => .entry id found (some entered.1))))

/-- What an opened directory is entered as. -/
def directoryHandle (nodeId : ℕ) (path token : Text) (values : List DirectoryValue) :
    FileHandle where
  kind := .directory
  path := path
  token := token
  bytes := (values.map fun value => value.name.length * 3 + 128).sum + 256
  nodeId := nodeId
  entries := [⟨.directory, js ".", path⟩, ⟨.directory, js "..", parentOf path⟩] ++
    values.map fun value => ⟨value.kind, value.name, path ++ 47 :: value.name⟩

/-- The directory that is entered, unless it is refused. -/
def openedEntries (nodeId : ℕ) (path : Text) (value : HostValue) (token : Text) :
    Except ℕ FileHandle :=
  match openedDirectory value with
  | none => .error 5
  | some values =>
    let handle := directoryHandle nodeId path token values
    if bridge.closed then .error 9
    else if bridge.files.directoryEntries + values.length + 2 > 8192 ∨
        bridge.files.directoryBytes + handle.bytes > 2 * 1024 * 1024 then .error 28
    else .ok handle

def opendirAnswered (serial nodeId : ℕ) (path : Text) (outcome : Except ℕ HostValue) :
    V86FuseEnvironmentBridgeV1 × Except ℕ (Option Answer) :=
  match outcome with
  | .error number => bridge.refuse none number
  | .ok value =>
    match handleToken value with
    | none => bridge.refuse none 5
    | some token =>
      match bridge.openedEntries nodeId path value token with
      | .error number => bridge.refuseToken serial none token number
      | .ok handle =>
        let entered := (bridge.files.receive token).openDirectory handle
        ({ bridge with files := entered.2.unreserve }, .ok (some (.opened entered.1)))

def continueRequest (serial : ℕ) (waiting : Waiting) (outcome : Except (Option ℤ) HostValue) :
    V86FuseEnvironmentBridgeV1 × Except ℕ (Option Answer) :=
  match waiting with
  | .openFile nodeId target inode =>
    bridge.openAnswered serial nodeId target inode (answered outcome)
  | .opendir nodeId path => bridge.opendirAnswered serial nodeId path (answered outcome)
  | .mkdir inode =>
    let made := bridge.mkdirAnswered inode (answered outcome)
    (made.1, made.2.map some)
  | .release handleId handle =>
    ({ bridge with files := (bridge.files.retireHandle handleId handle).2 },
      (answered outcome).map fun _ => some (.result []))
  | _ =>
    match answered outcome with
    | .error number => (bridge, .error number)
    | .ok value =>
      match waiting with
      | .getattr nodeId path =>
        let made := bridge.getattrAnswered nodeId path value
        (made.1, made.2.map some)
      | .lookup childPath =>
        let made := bridge.lookupAnswered childPath value
        (made.1, made.2.map some)
      | .unlink childPath =>
        ({ bridge with tables := bridge.tables.forgetPath childPath }, .ok (some (.result [])))
      | .rename fromPath toPath =>
        let forgotten :=
          if fromPath ≠ toPath then bridge.tables.forgetPath toPath else bridge.tables
        ({ bridge with
            tables := forgotten.renamePath fromPath toPath
            files := bridge.files.renamePath fromPath toPath }, .ok (some (.result [])))
      | other => (bridge, (reply other value).map some)

end Answers

end V86FuseEnvironmentBridgeV1

/-- What happens to a bridge. -/
inductive FuseEvent where
  /-- A frame of the kernel, with what the host says of its process. -/
  | request (payload : List UInt8) (attributed : Except (Option ℤ) Common)
  | settle (serial : ℕ) (outcome : Except (Option ℤ) HostValue)
  | returns
  | close

namespace V86FuseEnvironmentBridgeV1

variable (bridge : V86FuseEnvironmentBridgeV1)

def conclude (serial : ℕ) (outcome : Except ℕ Outcome) : V86FuseEnvironmentBridgeV1 :=
  match outcome with
  | .error number => { bridge with answers := bridge.answers ++ [(serial, .error number)] }
  | .ok (.answers answer) => { bridge with answers := bridge.answers ++ [(serial, .ok answer)] }
  | .ok (.waits waiting) => { bridge with waiting := bridge.waiting.set serial waiting }

def finish (serial : ℕ) (outcome : Except ℕ (Option Answer)) : V86FuseEnvironmentBridgeV1 :=
  let waiting := bridge.waiting.delete serial
  match outcome with
  | .error number => { bridge with waiting, answers := bridge.answers ++ [(serial, .error number)] }
  | .ok (some answer) =>
    { bridge with waiting, answers := bridge.answers ++ [(serial, .ok answer)] }
  | .ok none => { bridge with waiting }

def step : FuseEvent → Option V86FuseEnvironmentBridgeV1
  | .request payload attributed =>
    match decodeV86FuseRequestV1 payload with
    -- The promise of a malformed frame is rejected.
    | none => some bridge
    | some request =>
      let handled := { bridge with requests := bridge.requests + 1 }.handle request attributed
      some (handled.1.conclude bridge.requests handled.2)
  | .settle serial outcome =>
    match bridge.waiting.get? serial with
    | none => none
    | some waiting =>
      let continued := bridge.continueRequest serial waiting outcome
      some (continued.1.finish serial continued.2)
  | .returns =>
    match bridge.leaving with
    | [] => none
    | (serial, number) :: rest =>
      some { bridge with
        leaving := rest
        files := bridge.files.unreserve
        answers := bridge.answers ++ [(serial, .error number)] }
  | .close => some bridge.close

end V86FuseEnvironmentBridgeV1

def fuseMachine : Machine V86FuseEnvironmentBridgeV1 FuseEvent where
  start := .new
  step := V86FuseEnvironmentBridgeV1.step

end Holonomy.Fuse
