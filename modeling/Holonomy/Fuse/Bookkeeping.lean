import Holonomy.Fuse.Bridge

/-!
# The books of the bridge

Places, counters and tokens are kept exactly in every run. The tables of inodes are kept exactly as
long as every path that is given a number can be given it.
-/

namespace Holonomy.Fuse

open Foundation

/-! ## Reading directories, forgetting and renaming

Reading a directory gives inodes to all its entries.
-/

namespace Inodes

variable {tables : Inodes}

/-- Every entry that gets an inode can be given it at that time. -/
def FreeAll (closed : Bool) : List DirectoryEntry → Inodes → Prop
  | [], _ => True
  | entry :: rest, tables =>
    if Unreadable (encodeUtf8 entry.name) then True
    else
      match tables.inode closed entry.path entry.kind with
      | .error _ => True
      | .ok (_, entered) =>
        tables.Free entry.path (tables.reservedId entry.path) ∧ FreeAll closed rest entered

theorem directoryParts_spec (closed : Bool) (entries : List DirectoryEntry) (index : ℕ)
    (tables : Inodes) :
    (tables.Exact → FreeAll closed entries tables →
      (directoryParts closed entries index tables).1.Exact) ∧
    (tables.Exact → ¬ FreeAll closed entries tables →
      (directoryParts closed entries index tables).1.Spoiled) ∧
    (tables.Spoiled → (directoryParts closed entries index tables).1.Spoiled) := by
  induction entries generalizing index tables with
  | nil => exact ⟨fun exact' _ => exact', fun _ taken => absurd trivial taken, id⟩
  | cons entry rest ih =>
    unfold directoryParts FreeAll
    by_cases unreadable : Unreadable (encodeUtf8 entry.name)
    · simp only [if_pos unreadable]
      exact ⟨fun exact' _ => exact', fun _ taken => absurd trivial taken, id⟩
    · simp only [if_neg unreadable]
      cases made : tables.inode closed entry.path entry.kind with
      | error number => exact ⟨fun exact' _ => exact', fun _ taken => absurd trivial taken, id⟩
      | ok pair =>
        obtain ⟨id, entered⟩ := pair
        obtain ⟨keeps, spoils, stays⟩ := ih (index + 1) entered
        refine ⟨fun exact' free => keeps (exact'.inode free.1 made) free.2, fun exact' taken => ?_,
          fun spoiled => stays (spoiled.inode made)⟩
        by_cases here : tables.Free entry.path (tables.reservedId entry.path)
        · exact spoils (exact'.inode here made) fun later => taken ⟨here, later⟩
        · exact stays (exact'.spoil_inode here made)

theorem encodeDirectory_tables (closed : Bool) (entries : List DirectoryEntry)
    (offset maximum : ℕ) (tables : Inodes) :
    (encodeV86FuseDirectoryV1 closed entries offset maximum tables).1 =
      if offset > 9007199254740991 then tables else (directoryParts closed entries 0 tables).1 := by
  unfold encodeV86FuseDirectoryV1
  split
  · rfl
  · rfl

section Forgetting

@[simp]
theorem inodes_forget (path : Text) (id : ℕ) : (tables.forget path id).inodes =
    tables.inodes.delete id := rfl

@[simp]
theorem inodeIds_forget (path : Text) (id : ℕ) : (tables.forget path id).inodeIds =
    tables.inodeIds.delete path := rfl

theorem Exact.forget {path : Text} {id : ℕ} (exact' : tables.Exact)
    (known : tables.inodeIds.get? path = some id) : (tables.forget path id).Exact := by
  have back := (exact'.inverse id path).mpr known
  refine ⟨fun other place => ?_, ?_⟩
  · simp only [inodes_forget, inodeIds_forget, OrderedMap.get?_delete]
    by_cases here : other = id
    · rw [if_pos here, here]
      by_cases there : place = path
      · rw [if_pos there]
        exact ⟨fun found => (by cases found), fun found => (by cases found)⟩
      · rw [if_neg there, ← exact'.inverse, back]
        exact ⟨fun found => (by cases found), fun same => absurd (Option.some.inj same).symm there⟩
    · rw [if_neg here]
      by_cases there : place = path
      · rw [if_pos there, exact'.inverse, there, known]
        exact ⟨fun same => absurd (Option.some.inj same).symm here, fun found => (by cases found)⟩
      · rw [if_neg there, exact'.inverse]
  · have smaller := OrderedMap.size_delete back
    have small := exact'.small
    rw [inodes_forget]
    omega

theorem Exact.forget_list {entries : List (Text × ℕ)} (exact' : tables.Exact)
    (distinct : (entries.map Prod.fst).Nodup)
    (known : ∀ entry ∈ entries, tables.inodeIds.get? entry.1 = some entry.2) :
    (entries.foldl (fun tables entry => tables.forget entry.1 entry.2) tables).Exact ∧
      ∀ path, (entries.foldl (fun tables entry => tables.forget entry.1 entry.2)
        tables).inodeIds.get? path =
          if path ∈ entries.map Prod.fst then none else tables.inodeIds.get? path := by
  induction entries generalizing tables with
  | nil => exact ⟨exact', fun path => rfl⟩
  | cons entry rest ih =>
    rw [List.map_cons, List.nodup_cons] at distinct
    have after := ih (exact'.forget (known entry List.mem_cons_self)) distinct.2
      fun other otherIn => by
        have elsewhere : other.1 ≠ entry.1 := by
          intro same
          exact distinct.1 (same ▸ List.mem_map_of_mem otherIn)
        rw [inodeIds_forget, OrderedMap.get?_delete, if_neg elsewhere]
        exact known other (List.mem_cons_of_mem _ otherIn)
    refine ⟨after.1, fun path => ?_⟩
    rw [List.foldl_cons, after.2 path, inodeIds_forget, OrderedMap.get?_delete, List.map_cons]
    by_cases here : path = entry.1
    · have first : path ∈ entry.1 :: rest.map Prod.fst := by
        rw [here]
        exact List.mem_cons_self
      rw [if_pos here, if_pos first, ite_self]
    · rw [if_neg here]
      by_cases later : path ∈ rest.map Prod.fst
      · rw [if_pos later, if_pos (List.mem_cons_of_mem _ later)]
      · have nowhere : path ∉ entry.1 :: rest.map Prod.fst := by
          rw [List.mem_cons, not_or]
          exact ⟨here, later⟩
        rw [if_neg later, if_neg nowhere]

theorem Exact.forgetPath (exact' : tables.Exact) (path : Text) :
    (tables.forgetPath path).Exact ∧ ∀ place,
      (tables.forgetPath path).inodeIds.get? place =
        if within path place then none else tables.inodeIds.get? place := by
  have distinct : ((tables.inodeIds.entries.filter fun entry => within path entry.1).map
      Prod.fst).Nodup := tables.inodeIds.distinct.sublist (List.filter_sublist.map Prod.fst)
  have listed := exact'.forget_list distinct
    fun entry entryIn => OrderedMap.get?_eq_some_iff.mpr (List.mem_of_mem_filter entryIn)
  refine ⟨listed.1, fun place => ?_⟩
  have found := listed.2 place
  rw [Inodes.forgetPath, found]
  by_cases covered : within path place
  · rw [if_pos covered]
    by_cases present : place ∈
        (tables.inodeIds.entries.filter fun entry => within path entry.1).map Prod.fst
    · rw [if_pos present]
    · rw [if_neg present]
      refine OrderedMap.get?_eq_none_iff.mpr fun known => present ?_
      obtain ⟨entry, entryIn, same⟩ := List.mem_map.mp known
      exact List.mem_map.mpr ⟨entry, List.mem_filter.mpr
        ⟨entryIn, by rw [same]; exact covered⟩, same⟩
  · rw [if_neg covered, if_neg]
    intro present
    obtain ⟨entry, entryIn, same⟩ := List.mem_map.mp present
    rw [← same] at covered
    exact covered (List.mem_filter.mp entryIn).2

end Forgetting

section Renaming

@[simp]
theorem inodes_move (path target : Text) (id : ℕ) : (tables.move path target id).inodes =
    tables.inodes.set id target := rfl

@[simp]
theorem inodeIds_move (path target : Text) (id : ℕ) : (tables.move path target id).inodeIds =
    (tables.inodeIds.delete path).set target id := rfl

theorem Exact.move {path target : Text} {id : ℕ} (exact' : tables.Exact)
    (known : tables.inodeIds.get? path = some id)
    (vacant : ∀ other, tables.inodeIds.get? target = some other → target = path) :
    (tables.move path target id).Exact := by
  have back := (exact'.inverse id path).mpr known
  refine ⟨fun other place => ?_, ?_⟩
  · simp only [inodes_move, inodeIds_move, OrderedMap.get?_set, OrderedMap.get?_delete]
    by_cases here : other = id
    · rw [if_pos here, here]
      by_cases there : place = target
      · rw [if_pos there, there]
        exact ⟨fun _ => rfl, fun _ => rfl⟩
      · rw [if_neg there]
        refine ⟨fun same => absurd (Option.some.inj same).symm there, fun found => ?_⟩
        by_cases old : place = path
        · rw [if_pos old] at found
          cases found
        · rw [if_neg old, ← exact'.inverse, back] at found
          exact absurd (Option.some.inj found).symm old
    · rw [if_neg here]
      by_cases there : place = target
      · rw [if_pos there, exact'.inverse, there]
        refine ⟨fun found => ?_, fun same => absurd (Option.some.inj same).symm here⟩
        rw [vacant other found, known] at found
        exact absurd (Option.some.inj found).symm here
      · rw [if_neg there]
        by_cases old : place = path
        · rw [if_pos old, exact'.inverse, old, known]
          exact ⟨fun same => absurd (Option.some.inj same).symm here, fun found => (by cases found)⟩
        · rw [if_neg old, exact'.inverse]
  · rw [inodes_move, OrderedMap.size_set_of_some back]
    exact exact'.small

theorem Exact.move_list {entries : List (Text × ℕ)} (target : Text → Text) (exact' : tables.Exact)
    (distinct : (entries.map Prod.fst).Nodup)
    (known : ∀ entry ∈ entries, tables.inodeIds.get? entry.1 = some entry.2)
    (apart : ∀ first ∈ entries, ∀ second ∈ entries, target first.1 = target second.1 →
      first.1 = second.1)
    (vacant : ∀ entry ∈ entries, ∀ other, tables.inodeIds.get? (target entry.1) = some other →
      target entry.1 = entry.1) :
    (entries.foldl (fun tables entry => tables.move entry.1 (target entry.1) entry.2)
      tables).Exact := by
  induction entries generalizing tables with
  | nil => exact exact'
  | cons entry rest ih =>
    rw [List.map_cons, List.nodup_cons] at distinct
    have mine := known entry List.mem_cons_self
    have different : ∀ other ∈ rest, other.1 ≠ entry.1 := by
      intro other otherIn same
      exact distinct.1 (same ▸ List.mem_map_of_mem otherIn)
    refine ih (exact'.move mine (vacant entry List.mem_cons_self)) distinct.2
      (fun other otherIn => ?_)
      (fun first firstIn second secondIn =>
        apart first (List.mem_cons_of_mem _ firstIn) second (List.mem_cons_of_mem _ secondIn))
      (fun other otherIn id found => ?_)
    · have there := known other (List.mem_cons_of_mem _ otherIn)
      have free : other.1 ≠ target entry.1 := by
        intro same
        have own := vacant entry List.mem_cons_self other.2 (by rw [← same]; exact there)
        exact different other otherIn (same.trans own)
      rw [inodeIds_move, OrderedMap.get?_set, if_neg free, OrderedMap.get?_delete,
        if_neg (different other otherIn)]
      exact there
    · have free : target other.1 ≠ target entry.1 := by
        intro same
        exact different other otherIn
          (apart other (List.mem_cons_of_mem _ otherIn) entry List.mem_cons_self same)
      rw [inodeIds_move, OrderedMap.get?_set, if_neg free, OrderedMap.get?_delete] at found
      by_cases old : target other.1 = entry.1
      · rw [if_pos old] at found
        cases found
      · rw [if_neg old] at found
        exact vacant other (List.mem_cons_of_mem _ otherIn) id found

theorem append_drop_of_within {path value : Text} (covered : within path value) :
    value = path ++ value.drop path.length := by
  unfold within at covered
  rw [Bool.or_eq_true, beq_iff_eq, List.isPrefixOf_iff_prefix] at covered
  rcases covered with same | ⟨rest, below⟩
  · rw [same, List.drop_length, List.append_nil]
  · rw [← below, List.append_assoc, List.drop_left]

theorem within_target {source target value : Text} (covered : within source value) :
    within target (target ++ value.drop source.length) := by
  unfold within at covered ⊢
  rw [Bool.or_eq_true, beq_iff_eq, List.isPrefixOf_iff_prefix] at covered ⊢
  rcases covered with same | ⟨rest, below⟩
  · left
    rw [same, List.drop_length, List.append_nil]
  · right
    rw [← below, List.append_assoc, List.drop_left]
    exact ⟨rest, by rw [List.append_assoc]⟩

theorem Exact.renamePath {source target : Text} (exact' : tables.Exact)
    (vacant : source ≠ target → ∀ place, within target place → tables.inodeIds.get? place = none) :
    (tables.renamePath source target).Exact := by
  have listed : ∀ entry ∈ tables.inodeIds.entries.filter (fun entry => within source entry.1),
      entry ∈ tables.inodeIds.entries ∧ within source entry.1 = true :=
    fun entry entryIn => List.mem_filter.mp entryIn
  refine exact'.move_list (fun path => target ++ path.drop source.length)
    (tables.inodeIds.distinct.sublist (List.filter_sublist.map Prod.fst))
    (fun entry entryIn => OrderedMap.get?_eq_some_iff.mpr (listed entry entryIn).1)
    (fun first firstIn second secondIn same => ?_) (fun entry entryIn other found => ?_)
  · have rest := List.append_cancel_left same
    rw [append_drop_of_within (listed first firstIn).2, rest,
      ← append_drop_of_within (listed second secondIn).2]
  · have covered := (listed entry entryIn).2
    by_cases same : source = target
    · rw [← same]
      exact (append_drop_of_within covered).symm
    · rw [vacant same _ (within_target covered)] at found
      cases found

end Renaming

end Inodes

section Places

/-- What no place is needed for: handles are retired or moved at most. -/
structure Handles.Shrinks (before after : Handles) : Prop where
  accounted : before.Accounted → after.Accounted
  pending : after.pendingHandles = before.pendingHandles
  size : after.handles.size ≤ before.handles.size

namespace Handles.Shrinks

variable {files : Handles}

theorem refl : files.Shrinks files := ⟨id, rfl, le_rfl⟩

theorem retireHandle (id : ℕ) (handle : FileHandle) :
    files.Shrinks (files.retireHandle id handle).2 := by
  refine ⟨fun accounted => accounted.retireHandle id handle, ?_, ?_⟩
  · unfold Handles.retireHandle
    split
    · rfl
    · split
      · rfl
      · simp only
        split
        · rfl
        · rfl
  · rcases files.handles_retireHandle id handle with same | ⟨dropped, present⟩
    · rw [same]
    · obtain ⟨current, found⟩ := Option.ne_none_iff_exists'.mp present
      have smaller := OrderedMap.size_delete found
      rw [dropped]
      omega

theorem renamePath (source target : Text) : files.Shrinks (files.renamePath source target) :=
  ⟨fun accounted => accounted.renamePath source target, rfl, (OrderedMap.size_mapValues _).le⟩

theorem reserve_unreserve {closed : Bool} {reserved : Handles}
    (made : files.reserveHandle closed = .ok reserved) : files.Shrinks reserved.unreserve := by
  refine ⟨fun accounted => (accounted.reserveHandle made).unreserve, ?_, ?_⟩
  · unfold Handles.reserveHandle at made
    split at made
    · cases made
    · cases made
      simp only [Handles.unreserve]
      ring
  · unfold Handles.reserveHandle at made
    split at made
    · cases made
    · cases made
      exact le_rfl

end Handles.Shrinks

def reserving (waiting : OrderedMap ℕ Waiting) : ℕ :=
  waiting.entries.countP fun entry => entry.2.reserves

theorem reserving_set {waiting : OrderedMap ℕ Waiting} {serial : ℕ} (request : Waiting)
    (absent : waiting.get? serial = none) :
    reserving (waiting.set serial request) = reserving waiting + request.reserves.toNat := by
  rw [reserving, OrderedMap.entries_set absent, List.countP_append, List.countP_singleton,
    reserving]
  cases request.reserves
  · rfl
  · rfl

theorem reserving_delete {waiting : OrderedMap ℕ Waiting} {serial : ℕ} {request : Waiting}
    (present : waiting.get? serial = some request) :
    reserving waiting = reserving (waiting.delete serial) + request.reserves.toNat := by
  rw [reserving, (OrderedMap.perm_delete present).countP_eq, List.countP_cons, reserving]
  cases request.reserves
  · rfl
  · rfl

end Places

namespace V86FuseEnvironmentBridgeV1

variable {bridge : V86FuseEnvironmentBridgeV1}

/-- What holds of places, counters and tokens in every run. -/
structure Sound (bridge : V86FuseEnvironmentBridgeV1) : Prop where
  accounted : bridge.files.Accounted
  pending : bridge.files.pendingHandles = reserving bridge.waiting + bridge.leaving.length
  room : bridge.files.handles.size + bridge.files.pendingHandles ≤ 64
  closed : bridge.closed = true → bridge.files.handles.size = 0
  serials : ∀ serial waiting, bridge.waiting.get? serial = some waiting → serial < bridge.requests

structure Exact (bridge : V86FuseEnvironmentBridgeV1) : Prop where
  inverse : bridge.tables.Inverse
  inodes : bridge.tables.inodes.size ≤ 4096
  inodeIds : bridge.tables.inodeIds.size ≤ 4096
  handles : bridge.files.handles.size + bridge.files.pendingHandles ≤ 64
  pending : bridge.files.pendingHandles = reserving bridge.waiting + bridge.leaving.length
  entries : bridge.files.directoryEntries = total bridge.files.handles FileHandle.listed
  bytes : bridge.files.directoryBytes = total bridge.files.handles FileHandle.listedBytes
  tokens : bridge.files.obtained.Perm (bridge.files.released ++ tokens bridge.files.handles)
  closed : bridge.closed = true → bridge.files.obtained.Perm bridge.files.released

theorem Sound.exact_iff (sound : bridge.Sound) : bridge.Exact ↔ bridge.tables.Exact := by
  constructor
  · exact fun books => ⟨books.inverse, books.inodes⟩
  · intro tables
    refine ⟨tables.inverse, tables.small, ?_, sound.room, sound.pending, sound.accounted.entries,
      sound.accounted.bytes, sound.accounted.tokens, fun closed => ?_⟩
    · rw [tables.inverse.size_eq]
      exact tables.small
    · have none : bridge.files.handles.entries = [] :=
        List.length_eq_zero_iff.mp (sound.closed closed)
      have whole := sound.accounted.tokens
      rw [tokens, none, List.map_nil, List.append_nil] at whole
      exact whole

section Beginning

def Plain (outcome : Except ℕ Outcome) : Prop :=
  ∀ waiting, outcome = .ok (.waits waiting) → waiting.reserves = false

theorem Plain.error (number : ℕ) : Plain (.error number) := by
  intro waiting same
  cases same

theorem Plain.answers (answer : Answer) : Plain (.ok (.answers answer)) := by
  intro waiting same
  cases same

theorem Plain.waits {waiting : Waiting} (placeless : waiting.reserves = false) :
    Plain (.ok (.waits waiting)) := by
  intro other same
  cases same
  exact placeless

theorem Plain.bind {α : Type} {first : Except ℕ α} {next : α → Except ℕ Outcome}
    (plain : ∀ value, Plain (next value)) : Plain (first >>= next) := by
  cases first with
  | error number => exact .error number
  | ok value => exact plain value

theorem Plain.map {α : Type} (first : Except ℕ α) (answer : α → Answer) :
    Plain (first.map fun value => .answers (answer value)) := by
  cases first with
  | error number => exact .error number
  | ok value => exact .answers _

theorem Plain.ite {condition : Prop} [Decidable condition] {first second : Except ℕ Outcome}
    (left : Plain first) (right : Plain second) :
    Plain (if condition then first else second) := by
  split
  · exact left
  · exact right

section

variable (request : FuseRequest)

include request

theorem plain_setattr (path : Text) : Plain (bridge.setattr request path) := by
  unfold setattr
  refine .bind fun pair => ?_
  split
  refine .ite (.error 9) ?_
  split
  · split
    · exact .ite (.error 22) (.waits (by rfl))
    · exact .waits (by rfl)
  · split
    · exact .ite (.error 22) (.waits (by rfl))
    · exact .waits (by rfl)

theorem plain_release : Plain (bridge.release request) := by
  unfold release
  refine .bind fun view => ?_
  simp only
  split
  · exact .error 9
  · exact .ite (.waits rfl) (.error 9)

theorem plain_rename (path : Text) : Plain (bridge.rename request path) := by
  unfold rename
  refine .bind fun view => ?_
  split
  · exact .error 2
  · exact .bind fun pair => .waits rfl

theorem plain_fsync (path : Text) : Plain (bridge.fsync request path) := by
  unfold fsync
  refine .bind fun pair => ?_
  split
  simp only
  split
  · exact .error 9
  · exact .ite (.error 9) (.waits rfl)

theorem plain_flush (path : Text) : Plain (bridge.flush request path) := by
  unfold flush
  refine .ite (.error 5) ?_
  split
  · exact .error 9
  · exact .ite (.error 9) (.answers _)

theorem plain_inquire (path : Text) : Plain (bridge.inquire request path) := by
  unfold inquire
  refine .ite (.waits (by rfl)) (.ite (.bind fun mask => .waits (by rfl))
    (.ite (plain_setattr request path) (.ite (.bind fun name => .waits (by rfl)) (.ite ?_ (.ite ?_
      (.ite (plain_release request) (.ite (.bind fun name => .waits (by rfl))
        (.ite (plain_rename request path) (.ite (.waits (by rfl))
          (.ite (plain_fsync request path) (.ite (plain_flush request path) (.error 38))))))))))))
  · unfold read
    exact .bind fun view => .ite (.error 9) (.bind fun offset => .ite (.error 22) (.waits (by rfl)))
  · unfold write
    exact .bind fun view => .ite (.error 9) (.ite (.error 22) (.bind fun offset => .waits (by rfl)))

end

structure Begins (before after : V86FuseEnvironmentBridgeV1) (outcome : Except ℕ Outcome)
    : Prop where
  closed : after.closed = before.closed
  waiting : after.waiting = before.waiting
  leaving : after.leaving = before.leaving
  requests : after.requests = before.requests
  files : (before.files.Shrinks after.files ∧ Plain outcome) ∨
    (before.files.reserveHandle before.closed = .ok after.files ∧
      ∃ waiting, outcome = .ok (.waits waiting) ∧ waiting.reserves = true)

variable {outcome : Except ℕ Outcome}

theorem Begins.of_tables (tables : Inodes) (plain : Plain outcome) :
    Begins bridge { bridge with tables } outcome :=
  ⟨rfl, rfl, rfl, rfl, .inl ⟨.refl, plain⟩⟩

theorem Begins.same (plain : Plain outcome) : Begins bridge bridge outcome :=
  ⟨rfl, rfl, rfl, rfl, .inl ⟨.refl, plain⟩⟩

theorem Begins.of_files {files : Handles}
    (shrinks : bridge.files.Shrinks files) (plain : Plain outcome) :
    Begins bridge { bridge with files } outcome :=
  ⟨rfl, rfl, rfl, rfl, .inl ⟨shrinks, plain⟩⟩

section

variable (request : FuseRequest)

include request

theorem begins_mkdir (path : Text) :
    Begins bridge (bridge.mkdir request path).1 (bridge.mkdir request path).2 := by
  unfold mkdir
  simp only
  split
  · exact .same (.error _)
  · exact .of_tables _ (.waits rfl)

theorem begins_openFile (path : Text) (create : Bool) :
    Begins bridge (bridge.openFile request path create).1
      (bridge.openFile request path create).2 := by
  unfold openFile
  split
  · exact .same (.error _)
  · rename_i files reserved
    simp only
    split
    · exact .of_files (.reserve_unreserve reserved) (.error _)
    · exact ⟨rfl, rfl, rfl, rfl, .inr ⟨reserved, _, rfl, rfl⟩⟩

theorem begins_opendir (path : Text) :
    Begins bridge (bridge.opendir request path).1 (bridge.opendir request path).2 := by
  unfold opendir
  split
  · exact .same (.error _)
  · rename_i files reserved
    split
    · exact .of_files (.reserve_unreserve reserved) (.error _)
    · exact ⟨rfl, rfl, rfl, rfl, .inr ⟨reserved, _, rfl, rfl⟩⟩

theorem begins_readdir : Begins bridge (bridge.readdir request).1 (bridge.readdir request).2 := by
  unfold readdir
  split
  · exact .same (.error _)
  · exact .of_tables _ (.map _ _)

theorem begins_releaseWithoutProcess : Begins bridge (bridge.releaseWithoutProcess request).1
      (bridge.releaseWithoutProcess request).2 := by
  unfold releaseWithoutProcess
  split
  · exact .same (.error _)
  · simp only
    generalize (if request.opcode = operation.release then EntryKind.file
      else EntryKind.directory) = expectedKind
    split
    · exact .same (.error _)
    · split
      · exact .same (.error _)
      · exact .of_files (.retireHandle _ _) (.ite (.answers _) (.error _))

theorem begins_handle (attributed : Except (Option ℤ) Common) :
    Begins bridge (bridge.handle request attributed).1 (bridge.handle request attributed).2 := by
  unfold handle
  split
  · exact .same (.error _)
  · split
    · exact begins_releaseWithoutProcess request
    · split
      · exact .same (.error _)
      · unfold handleRequest
        split
        · exact .same (.answers _)
        · split
          · exact .same (.error _)
          · split
            · exact .same (.error _)
            · rename_i path _
              split
              · exact begins_mkdir request path
              · split
                · exact begins_openFile request path false
                · split
                  · exact begins_openFile request path true
                  · split
                    · exact begins_opendir request path
                    · split
                      · exact begins_readdir request
                      · exact .same (plain_inquire request path)

end

end Beginning

section Continuing

/-- What becomes of the place of a request behind the host's answer: a request without one retires
or moves handles at most; with one, it gives it up, or has a refused token on its way back, or makes
a handle of it. -/
inductive Places (before after : V86FuseEnvironmentBridgeV1) (waiting : Waiting) : Prop where
  | none (placeless : waiting.reserves = false) (shrinks : before.files.Shrinks after.files)
    (leaving : after.leaving = before.leaving)
  | refused (placed : waiting.reserves = true) (files : after.files = before.files.unreserve)
    (leaving : after.leaving = before.leaving)
  | returned (placed : waiting.reserves = true) (token : Text)
    (files : after.files = (before.files.receive token).release token)
    (leaving : after.leaving.length = before.leaving.length + 1)
  | made (placed : waiting.reserves = true)
    (accounted : before.files.Accounted → after.files.Accounted)
    (pending : after.files.pendingHandles = before.files.pendingHandles - 1)
    (size : before.files.Accounted → after.files.handles.size = before.files.handles.size + 1)
    (leaving : after.leaving = before.leaving) (openNow : before.closed = false)

/-- What a request does behind the host's answer: the parts of the bridge beside tables, handles and
tokens on their way stay. -/
structure Continues (before after : V86FuseEnvironmentBridgeV1) (waiting : Waiting) : Prop where
  closed : after.closed = before.closed
  others : after.waiting = before.waiting
  requests : after.requests = before.requests
  places : Places before after waiting

theorem Continues.of_tables {waiting : Waiting} (tables : Inodes)
    (placeless : waiting.reserves = false) : Continues bridge { bridge with tables } waiting :=
  ⟨rfl, rfl, rfl, .none placeless .refl rfl⟩

theorem Continues.same {waiting : Waiting} (placeless : waiting.reserves = false) :
    Continues bridge bridge waiting :=
  ⟨rfl, rfl, rfl, .none placeless .refl rfl⟩

theorem continues_openFile (serial nodeId : ℕ) (target : Text) (inode : Option Reservation)
    (outcome : Except ℕ HostValue) :
    Continues bridge (bridge.openAnswered serial nodeId target inode outcome).1
      (.openFile nodeId target inode) := by
  unfold openAnswered
  split
  · exact ⟨rfl, rfl, rfl, .refused rfl rfl rfl⟩
  · split
    · exact ⟨rfl, rfl, rfl, .refused rfl rfl rfl⟩
    · rename_i value token found
      split
      · exact ⟨rfl, rfl, rfl, .returned rfl token rfl rfl⟩
      · rename_i id metadata tables made
        have openNow : bridge.closed = false := by
          unfold openedInode at made
          split at made
          · cases made
          · split at made
            · cases made
            · rename_i openNow
              exact Bool.not_eq_true _ ▸ openNow
        refine ⟨rfl, rfl, rfl, .made rfl (fun accounted => ?_) rfl (fun accounted => ?_) rfl
          openNow⟩
        · have file : (⟨.file, target, token, 0, id, []⟩ : FileHandle).kind = .file := rfl
          exact (accounted.openFile file).unreserve
        · exact OrderedMap.size_set_of_none accounted.absent

theorem continues_opendir (serial nodeId : ℕ) (path : Text) (outcome : Except ℕ HostValue) :
    Continues bridge (bridge.opendirAnswered serial nodeId path outcome).1
      (.opendir nodeId path) := by
  unfold opendirAnswered
  split
  · exact ⟨rfl, rfl, rfl, .refused rfl rfl rfl⟩
  · split
    · exact ⟨rfl, rfl, rfl, .refused rfl rfl rfl⟩
    · rename_i value token found
      split
      · exact ⟨rfl, rfl, rfl, .returned rfl token rfl rfl⟩
      · rename_i handle made
        have shape : bridge.closed = false ∧ ∃ values,
            handle = directoryHandle nodeId path token values := by
          unfold openedEntries at made
          split at made
          · cases made
          · rename_i values _
            simp only at made
            split at made
            · cases made
            · rename_i openNow
              split at made
              · cases made
              · cases made
                exact ⟨by simpa using openNow, values, rfl⟩
        obtain ⟨openNow, values, same⟩ := shape
        refine ⟨rfl, rfl, rfl, .made rfl (fun accounted => ?_) rfl (fun accounted => ?_) rfl
          openNow⟩
        · have directory : handle.kind = .directory := by
            rw [same]
            rfl
          have mine : handle.token = token := by
            rw [same]
            rfl
          have opened := accounted.openDirectory directory
          rw [mine] at opened
          exact opened.unreserve
        · exact OrderedMap.size_set_of_none accounted.absent

/-- Every request behind the host's answer. -/
theorem continues_continueRequest (serial : ℕ) (waiting : Waiting)
    (outcome : Except (Option ℤ) HostValue) :
    Continues bridge (bridge.continueRequest serial waiting outcome).1 waiting := by
  cases waiting with
  | openFile nodeId target inode => exact continues_openFile serial nodeId target inode _
  | opendir nodeId path => exact continues_opendir serial nodeId path _
  | mkdir inode =>
    simp only [continueRequest, mkdirAnswered]
    split
    · exact .of_tables _ rfl
    · exact .of_tables _ rfl
  | release handleId handle =>
    exact ⟨rfl, rfl, rfl, .none rfl (.retireHandle handleId handle) rfl⟩
  | getattr nodeId path =>
    simp only [continueRequest, getattrAnswered]
    split
    · exact .same rfl
    · split
      · exact .same rfl
      · exact .of_tables _ rfl
  | lookup childPath =>
    simp only [continueRequest, lookupAnswered]
    split
    · exact .same rfl
    · split
      · exact .same rfl
      · split
        · exact .same rfl
        · exact .of_tables _ rfl
  | unlink childPath =>
    simp only [continueRequest]
    split
    · exact .same rfl
    · exact .of_tables _ rfl
  | rename fromPath toPath =>
    simp only [continueRequest]
    split
    · exact .same rfl
    · exact ⟨rfl, rfl, rfl, .none rfl (.renamePath fromPath toPath) rfl⟩
  | _ =>
    simp only [continueRequest]
    split
    · exact .same rfl
    · exact .same rfl

end Continuing

section Runs

theorem sound_new : Sound .new where
  accounted := .new
  pending := rfl
  room := by decide
  closed := fun _ => rfl
  serials serial waiting found := by cases found

variable {after : V86FuseEnvironmentBridgeV1}

theorem Sound.shrink (sound : bridge.Sound)
    (shrinks : bridge.files.Shrinks after.files) (closed : after.closed = bridge.closed)
    (leaving : after.leaving.length = bridge.leaving.length)
    (placed : reserving after.waiting = reserving bridge.waiting)
    (serials : ∀ serial waiting, after.waiting.get? serial = some waiting →
    serial < after.requests) :
    after.Sound where
  accounted := shrinks.accounted sound.accounted
  pending := by rw [shrinks.pending, sound.pending, leaving, placed]
  room := by
    have room := sound.room
    have size := shrinks.size
    have pending := shrinks.pending
    omega
  closed := fun isClosed => by
    have none := sound.closed (closed ▸ isClosed)
    have size := shrinks.size
    omega
  serials := serials

theorem Sound.conclude {outcome : Except ℕ Outcome}
    (sound : bridge.Sound) (begins : Begins { bridge with requests := bridge.requests + 1 } after
      outcome) : (after.conclude bridge.requests outcome).Sound := by
  have absent : bridge.waiting.get? bridge.requests = none := by
    cases found : bridge.waiting.get? bridge.requests with
    | none => rfl
    | some waiting => exact absurd (sound.serials _ waiting found) (lt_irrefl _)
  have same := begins.waiting
  have known : ∀ serial waiting, after.waiting.get? serial = some waiting →
      serial < after.requests := by
    intro serial waiting found
    rw [same] at found
    have below := sound.serials serial waiting found
    rw [begins.requests]
    exact Nat.lt_succ_of_lt below
  have waitsToo : ∀ request serial waiting,
      (after.waiting.set bridge.requests request).get? serial = some waiting →
        serial < after.requests := by
    intro request serial waiting found
    rw [OrderedMap.get?_set] at found
    by_cases here : serial = bridge.requests
    · rw [here, begins.requests]
      exact Nat.lt_succ_self _
    · rw [if_neg here] at found
      exact known serial waiting found
  have shrunk : ∀ {last : V86FuseEnvironmentBridgeV1}, bridge.files.Shrinks after.files →
      last.files = after.files → last.closed = after.closed → last.leaving = after.leaving →
      last.waiting = after.waiting → last.requests = after.requests → last.Sound := by
    intro last shrinks files closed leaving waiting requests
    refine sound.shrink (files ▸ shrinks) (closed.trans begins.closed) ?_ ?_ ?_
    · rw [leaving, begins.leaving]
    · rw [waiting, same]
    · rw [waiting, requests]
      exact known
  rcases begins.files with ⟨shrinks, plain⟩ | ⟨reserved, request, waits, placed⟩
  · cases outcome with
    | error number => exact shrunk shrinks rfl rfl rfl rfl rfl
    | ok outcome =>
      cases outcome with
      | answers answer => exact shrunk shrinks rfl rfl rfl rfl rfl
      | waits request =>
        have placeless := plain request rfl
        have count := reserving_set request absent
        rw [placeless, Bool.toNat_false, add_zero] at count
        refine sound.shrink shrinks begins.closed ?_ ?_ ?_
        · exact congrArg List.length begins.leaving
        · change reserving (after.waiting.set bridge.requests request) = _
          rw [same]
          exact count
        · exact waitsToo request
  · have count := reserving_set request absent
    rw [placed, Bool.toNat_true] at count
    have accounted := sound.accounted.reserveHandle reserved
    have pending := sound.pending
    have leaving := congrArg List.length begins.leaving
    rw [waits]
    unfold Handles.reserveHandle at reserved
    split at reserved
    · cases reserved
    · rename_i free
      rw [not_or, not_le] at free
      rw [Except.ok.injEq] at reserved
      have openNow : after.closed ≠ true := by
        rw [begins.closed]
        exact free.1
      have more : after.files.pendingHandles = bridge.files.pendingHandles + 1 := by
        rw [← reserved]
      have handles : after.files.handles = bridge.files.handles := by
        rw [← reserved]
      have waitingCount : reserving (after.waiting.set bridge.requests request) =
          reserving bridge.waiting + 1 := by
        rw [same]
        exact count
      refine ⟨accounted, ?_, ?_, fun isClosed => absurd isClosed openNow, ?_⟩
      · change after.files.pendingHandles =
          reserving (after.waiting.set bridge.requests request) + after.leaving.length
        rw [more, waitingCount, leaving, pending]
        push_cast
        ring
      · change (after.files.handles.size : ℤ) + after.files.pendingHandles ≤ 64
        rw [more, handles]
        have room := free.2
        change (bridge.files.handles.size : ℤ) + bridge.files.pendingHandles < 64 at room
        omega
      · exact waitsToo request

theorem finish_spec (bridge : V86FuseEnvironmentBridgeV1) (serial : ℕ)
    (outcome : Except ℕ (Option Answer)) :
    (bridge.finish serial outcome).files = bridge.files ∧
      (bridge.finish serial outcome).tables = bridge.tables ∧
      (bridge.finish serial outcome).closed = bridge.closed ∧
      (bridge.finish serial outcome).leaving = bridge.leaving ∧
      (bridge.finish serial outcome).waiting = bridge.waiting.delete serial ∧
      (bridge.finish serial outcome).requests = bridge.requests := by
  unfold finish
  split
  · exact ⟨rfl, rfl, rfl, rfl, rfl, rfl⟩
  · exact ⟨rfl, rfl, rfl, rfl, rfl, rfl⟩
  · exact ⟨rfl, rfl, rfl, rfl, rfl, rfl⟩

/-- A request goes on behind the host's answer and is finished. -/
theorem Sound.finish {serial : ℕ} {waiting : Waiting}
    (sound : bridge.Sound) (present : bridge.waiting.get? serial = some waiting)
    (continues : Continues bridge after waiting) (outcome : Except ℕ (Option Answer)) :
    (after.finish serial outcome).Sound := by
  obtain ⟨files, _, closed, leaving, others, requests⟩ := finish_spec after serial outcome
  rw [continues.closed] at closed
  rw [continues.others] at others
  rw [continues.requests] at requests
  have count := reserving_delete present
  have pending := sound.pending
  have room := sound.room
  have serials : ∀ other request, (after.finish serial outcome).waiting.get? other = some request →
      other < (after.finish serial outcome).requests := by
    intro other request found
    rw [others, OrderedMap.get?_delete] at found
    rw [requests]
    by_cases here : other = serial
    · rw [if_pos here] at found
      cases found
    · rw [if_neg here] at found
      exact sound.serials other request found
  cases continues.places with
  | none placeless shrinks leaves =>
    rw [placeless, Bool.toNat_false, add_zero] at count
    refine sound.shrink (files ▸ shrinks) closed (by rw [leaving, leaves]) ?_ serials
    rw [others, count]
  | refused placed unreserved leaves =>
    rw [placed, Bool.toNat_true] at count
    rw [unreserved] at files
    rw [leaves] at leaving
    refine ⟨files ▸ sound.accounted.unreserve, ?_, ?_, fun isClosed => ?_, serials⟩
    · rw [files, others, leaving]
      change bridge.files.pendingHandles - 1 = _
      omega
    · rw [files]
      change (bridge.files.handles.size : ℤ) + (bridge.files.pendingHandles - 1) ≤ 64
      omega
    · rw [files]
      exact sound.closed (closed ▸ isClosed)
  | returned placed token back leaves =>
    rw [placed, Bool.toNat_true] at count
    rw [back] at files
    refine ⟨files ▸ sound.accounted.refuse token, ?_, ?_, fun isClosed => ?_, serials⟩
    · rw [files, others, leaving, leaves]
      change bridge.files.pendingHandles = _
      push_cast
      omega
    · rw [files]
      exact room
    · rw [files]
      exact sound.closed (closed ▸ isClosed)
  | made placed accounted fewer size leaves openNow =>
    rw [placed, Bool.toNat_true] at count
    have more := size sound.accounted
    refine ⟨files ▸ accounted sound.accounted, ?_, ?_, fun isClosed => ?_, serials⟩
    · rw [files, others, leaving, leaves, fewer]
      omega
    · rw [files, more, fewer]
      push_cast
      omega
    · rw [closed, openNow] at isClosed
      cases isClosed

theorem Sound.close (sound : bridge.Sound) : bridge.close.Sound := by
  unfold V86FuseEnvironmentBridgeV1.close
  split
  · exact sound
  · obtain ⟨accounted, none⟩ := sound.accounted.close
    have pending : bridge.files.close.pendingHandles = bridge.files.pendingHandles := by
      have kept : ∀ (entries : List (ℕ × FileHandle)) (files : Handles),
          (entries.foldl (fun files entry => (files.retireHandle entry.1 entry.2).2)
            files).pendingHandles = files.pendingHandles := by
        intro entries
        induction entries with
        | nil => exact fun files => rfl
        | cons entry rest ih =>
          intro files
          rw [List.foldl_cons, ih]
          exact (Handles.Shrinks.retireHandle entry.1 entry.2).pending
      exact kept _ _
    have room := sound.room
    refine ⟨accounted, ?_, ?_, fun _ => none, sound.serials⟩
    · change bridge.files.close.pendingHandles = _
      rw [pending]
      exact sound.pending
    · change (bridge.files.close.handles.size : ℤ) + bridge.files.close.pendingHandles ≤ 64
      rw [none, pending]
      omega

/-- Every step keeps the books of places, counters and tokens. -/
theorem Sound.step {event : FuseEvent} (sound : bridge.Sound)
    (stepped : bridge.step event = some after) : after.Sound := by
  cases event with
  | request payload attributed =>
    simp only [V86FuseEnvironmentBridgeV1.step] at stepped
    split at stepped
    · cases stepped
      exact sound
    · cases stepped
      exact sound.conclude (begins_handle _ attributed)
  | settle serial outcome =>
    simp only [V86FuseEnvironmentBridgeV1.step] at stepped
    split at stepped
    · cases stepped
    · rename_i waiting present
      cases stepped
      exact sound.finish present (continues_continueRequest serial waiting outcome) _
  | returns =>
    simp only [V86FuseEnvironmentBridgeV1.step] at stepped
    split at stepped
    · cases stepped
    · rename_i serial number rest leaving
      cases stepped
      have pending := sound.pending
      have room := sound.room
      rw [leaving, List.length_cons] at pending
      refine ⟨sound.accounted.unreserve, ?_, ?_, sound.closed, sound.serials⟩
      · change bridge.files.pendingHandles - 1 = reserving bridge.waiting + rest.length
        push_cast at pending
        omega
      · change (bridge.files.handles.size : ℤ) + (bridge.files.pendingHandles - 1) ≤ 64
        omega
  | close =>
    cases stepped
    exact sound.close

end Runs

end V86FuseEnvironmentBridgeV1

end Holonomy.Fuse
