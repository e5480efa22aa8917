import Holonomy.Service.StateStore

/-!
# Recovering the state

The directory always holds a state file and the records of a journal of which at most the last one
is ahead of the state file. Opening it gives the state of that record, or else the state of the
file.
-/

namespace Holonomy.Service

open Foundation Network

/-! ## Reading the journal back

The record of a transaction is read back as it was written, its event as a copy.
-/

section

/-- A record whose parts agree. -/
structure JournalRecord.Sound (record : JournalRecord) : Prop where
  counted : 1 ≤ record.cursor
  timed : record.time ≤ maxSafeInteger
  valid : IsState record.nextState
  sameCursor : cursorOf record.nextState = record.cursor
  isObject : ∃ members, record.event = .object members
  typed : ∃ type, requireString (memberOf record.event (js "type")) "Journal event type" 128
    = .ok type
  eventCursor : numberAt record.event (js "cursor") = some (record.cursor : ℚ)
  eventTime : numberAt record.event (js "at") = some (record.time : ℚ)

def JournalRecord.readBack (record : JournalRecord) : JournalRecord :=
  { record with event := cloneJson record.event }

variable {state : JsonValue} {members : List (Text × JsonValue)} {options : StoreOptions}
  {call : Call} {work : Transaction}

theorem memberOf_toJson (record : JournalRecord) :
    memberOf record.toJson (js "at") = some (.number record.time) ∧
      memberOf record.toJson (js "cursor") = some (.number record.cursor) ∧
      memberOf record.toJson (js "event") = some record.event ∧
      memberOf record.toJson (js "nextState") = some record.nextState ∧
      memberOf record.toJson (js "schemaVersion") = some (.number serviceSchemaVersion) :=
  ⟨rfl, rfl, rfl, rfl, rfl⟩

theorem JournalRecord.Sound.reads {record : JournalRecord} (sound : record.Sound) :
    validateJournal (cloneJson record.toJson) = .ok record.readBack := by
  obtain ⟨hasTime, hasCursor, hasEvent, hasState, hasVersion⟩ := memberOf_toJson record
  have plain : js "at" ≠ protoKey ∧ js "cursor" ≠ protoKey ∧ js "event" ≠ protoKey ∧
      js "nextState" ≠ protoKey ∧ js "schemaVersion" ≠ protoKey ∧ js "type" ≠ protoKey := by
    decide
  obtain ⟨time, cursor, event, state, version, type⟩ := plain
  obtain ⟨members, isObject⟩ := sound.isObject
  obtain ⟨typeText, typed⟩ := sound.typed
  have small : record.cursor ≤ maxSafeInteger := by
    have bounded := sound.valid.shape.counters.2.2.2
    rwa [sound.sameCursor] at bounded
  have isRecord : requireRecord (some (cloneJson record.toJson)) "Journal record"
      = .ok (cloneJson record.toJson) := by
    rw [cloneJson, JournalRecord.toJson, normalizeJson]
    rfl
  have readVersion : ¬ numberAt (cloneJson record.toJson) (js "schemaVersion")
      ≠ some (serviceSchemaVersion : ℚ) := by
    rw [cloneJson, numberAt_normalizeJson _ version, numberAt, hasVersion]
    exact fun different => different rfl
  have readCursor : requireInteger (memberOf (cloneJson record.toJson) (js "cursor"))
      "Journal cursor" 1 maxSafeInteger = .ok record.cursor := by
    rw [cloneJson, memberOf_normalizeJson _ cursor, requireInteger_map, hasCursor]
    exact requireInteger_of (safeInteger?_number small) sound.counted small
  have readTime : requireInteger (memberOf (cloneJson record.toJson) (js "at"))
      "Journal timestamp" 0 maxSafeInteger = .ok record.time := by
    rw [cloneJson, memberOf_normalizeJson _ time, requireInteger_map, hasTime]
    exact requireInteger_of (safeInteger?_number sound.timed) (Nat.zero_le _) sound.timed
  have readEvent : requireRecord (memberOf (cloneJson record.toJson) (js "event")) "Journal event"
      = .ok (normalizeJson record.event) := by
    rw [cloneJson, memberOf_normalizeJson _ event, requireRecord_map, hasEvent, isObject]
    rfl
  have readType : requireString (memberOf (normalizeJson record.event) (js "type"))
      "Journal event type" 128 = .ok typeText := by
    rw [memberOf_normalizeJson _ type, requireString_map]
    exact typed
  have readState : validateState ((memberOf (cloneJson record.toJson) (js "nextState")).getD .null)
      = .ok record.nextState := by
    rw [cloneJson, memberOf_normalizeJson _ state, hasState]
    change validateState (normalizeJson record.nextState) = _
    rw [sound.valid.normal]
    exact sound.valid
  have agrees : ¬ (cursorOf record.nextState ≠ record.cursor ∨
      numberAt (normalizeJson record.event) (js "cursor") ≠ some (record.cursor : ℚ) ∨
      numberAt (normalizeJson record.event) (js "at") ≠ some (record.time : ℚ)) := by
    rw [numberAt_normalizeJson _ cursor, numberAt_normalizeJson _ time, sound.eventCursor,
      sound.eventTime, sound.sameCursor]
    simp
  rw [validateJournal, isRecord]
  simp only [bind, Except.bind]
  rw [if_neg readVersion, readCursor]
  simp only
  rw [readTime]
  simp only
  rw [readEvent]
  simp only
  rw [readType]
  simp only
  rw [readState]
  simp only
  rw [if_neg agrees, cloneJson, normalizeJson_normalizeJson]
  rfl

theorem readJournalRecords_files {records : List JournalRecord}
    (sound : ∀ record ∈ records, record.Sound) :
    readJournalRecords (records.map JournalRecord.file)
      = .ok (records.map JournalRecord.readBack) := by
  induction records with
  | nil => rfl
  | cons record records ih =>
    have first := (sound record List.mem_cons_self).reads
    have rest := ih fun other otherIn => sound other (List.mem_cons_of_mem record otherIn)
    have named : ¬ record.readBack.cursor ≠ record.cursor := fun different => different rfl
    rw [List.map_cons, JournalRecord.file, readJournalRecords, first]
    simp only [bind, Except.bind]
    rw [if_neg named, rest]
    rfl

theorem replay_past {past : List JournalRecord} (recovered : Bool)
    (had : ∀ record ∈ past, record.cursor ≤ cursorOf state) (records : List JournalRecord) :
    replay state recovered (past ++ records) = replay state recovered records := by
  induction past with
  | nil => rfl
  | cons record past ih =>
    have first : record.cursor ≤ cursorOf state := had record List.mem_cons_self
    rw [List.cons_append, replay, if_pos first]
    exact ih fun other otherIn => had other (List.mem_cons_of_mem record otherIn)

theorem writeRecord_append {files : List (ℕ × JsonValue)} {name : ℕ} {value : JsonValue}
    (smaller : ∀ file ∈ files, file.1 < name) :
    writeRecord name value files = files ++ [(name, value)] := by
  induction files with
  | nil => rfl
  | cons file files ih =>
    have first : file.1 < name := smaller file List.mem_cons_self
    rw [writeRecord, if_neg (by omega), if_neg (by omega), List.cons_append,
      ih fun other otherIn => smaller other (List.mem_cons_of_mem file otherIn)]

theorem eventData_keys {data : Given} (made : eventData data = .ok members) :
    members.find? (fun entry => decide (entry.1 = js "type")) = none := by
  have other : ∀ value : JsonValue,
      [(js "data", value)].find? (fun entry => decide (entry.1 = js "type")) = none :=
    fun _ => rfl
  cases data with
  | undefined =>
    rw [← Except.ok.inj made]
    rfl
  | _ =>
    obtain ⟨value, -, found⟩ := found_of_bind made
    rw [← Except.ok.inj found]
    exact other value

theorem eventSubject_keys {subject : Given} (made : eventSubject subject = .ok members) :
    members.find? (fun entry => decide (entry.1 = js "type")) = none := by
  have other : ∀ value : JsonValue,
      [(js "subject", value)].find? (fun entry => decide (entry.1 = js "type")) = none :=
    fun _ => rfl
  cases subject with
  | undefined =>
    rw [← Except.ok.inj made]
    rfl
  | _ =>
    obtain ⟨text, -, found⟩ := found_of_bind made
    rw [← Except.ok.inj found]
    exact other (.string text)

theorem requireString_again {value : Option JsonValue} {label other : String} {max : ℕ}
    {text : Text} (found : requireString value label max = .ok text) :
    requireString (some (.string text)) other max = .ok text := by
  cases value with
  | none => cases found
  | some content =>
    cases content with
    | string given =>
      rw [requireString] at found
      by_cases outside : given.length < 1 ∨ max < given.length
      · rw [if_pos outside] at found
        cases found
      · rw [if_neg outside] at found
        have same := Except.ok.inj found
        rw [requireString, ← same, if_neg outside]
    | _ => cases found

theorem eventOf_ok {time cursor : ℕ} {descriptor : EventDescriptor} {event : JsonValue}
    (made : eventOf time cursor descriptor = .ok event) :
    (∃ members, event = .object members) ∧
      (∃ type, requireString (memberOf event (js "type")) "Journal event type" 128 = .ok type) ∧
      numberAt event (js "cursor") = some (cursor : ℚ) ∧
      numberAt event (js "at") = some (time : ℚ) := by
  rw [eventOf] at made
  obtain ⟨data, hasData, made⟩ := found_of_bind made
  obtain ⟨subject, hasSubject, made⟩ := found_of_bind made
  obtain ⟨type, hasType, made⟩ := found_of_bind made
  have same := (Except.ok.inj made).symm
  subst same
  refine ⟨⟨_, rfl⟩, ⟨type, ?_⟩, rfl, rfl⟩
  have found : memberOf (.object ((js "at", .number time) :: (js "cursor", .number cursor) ::
      (data ++ subject ++ [(js "type", .string type)]))) (js "type") = some (.string type) := by
    change ((data ++ subject ++ [(js "type", JsonValue.string type)]).find?
      fun entry => decide (entry.1 = js "type")).map Prod.snd = _
    rw [List.find?_append, List.find?_append, eventData_keys hasData, eventSubject_keys hasSubject]
    rfl
  rw [found]
  exact requireString_again hasType

theorem prepare_ok (prepared : prepare options state call = .ok work) :
    work.record.cursor = cursorOf state + 1 ∧ work.record.time = call.time ∧
      IsState work.record.nextState ∧
      ∃ descriptor, eventOf call.time (cursorOf state + 1) descriptor = .ok work.record.event := by
  rw [prepare] at prepared
  obtain ⟨⟨draft, result⟩, -, prepared⟩ := found_of_bind prepared
  obtain ⟨_, -, prepared⟩ := found_of_bind prepared
  obtain ⟨⟨finished, given⟩, -, prepared⟩ := found_of_bind prepared
  obtain ⟨descriptor, -, prepared⟩ := found_of_bind prepared
  obtain ⟨event, hasEvent, prepared⟩ := found_of_bind prepared
  obtain ⟨_, -, prepared⟩ := found_of_bind prepared
  obtain ⟨nextState, isNext, prepared⟩ := found_of_bind prepared
  have same := (Except.ok.inj prepared).symm
  subst same
  refine ⟨rfl, rfl, ?_, descriptor, hasEvent⟩
  cases finished with
  | none => cases isNext
  | some finished => exact isState_of_valid isNext

theorem sound_of_prepare (prepared : prepare options state call = .ok work)
    (early : call.time ≤ maxTime) (counts : cursorOf work.record.nextState = cursorOf state + 1) :
    work.record.Sound := by
  obtain ⟨cursor, time, valid, descriptor, made⟩ := prepare_ok prepared
  obtain ⟨isObject, typed, eventCursor, eventTime⟩ := eventOf_ok made
  constructor
  · omega
  · have large : maxTime ≤ maxSafeInteger := by decide
    omega
  · exact valid
  · rw [counts, cursor]
  · exact isObject
  · exact typed
  · rw [cursor]
    exact eventCursor
  · rw [time]
    exact eventTime

end

def latest (ahead : Option JournalRecord) (base : JsonValue) : JsonValue :=
  (ahead.map JournalRecord.nextState).getD base

namespace Store

variable (options : StoreOptions)

section Books

def Covered (store : Store) (records : List JournalRecord) (floor cursor : ℕ) : Prop :=
  ∀ number, floor < number → number ≤ cursor →
    (∀ deletion ∈ store.deletions, deletion.cursor ≠ number) ∧
      ∃ record ∈ records, record.cursor = number

structure Holds (store : Store) (older : List JournalRecord) (ahead : Option JournalRecord)
    (base : JsonValue) : Prop where
  journal : store.disk.journal = (older ++ ahead.toList).map JournalRecord.file
  sound : ∀ record ∈ older ++ ahead.toList, record.Sound
  evented : ∀ record ∈ older ++ ahead.toList,
    store.events[record.cursor - 1]? = some (cloneJson record.event)
  past : ∀ record ∈ older, record.cursor ≤ cursorOf base
  next : ∀ record ∈ ahead.toList,
    record.cursor = cursorOf base + 1 ∧ options.fits record.nextState = true
  valid : IsState base
  stateFile : store.disk.stateFile = some base ∨
    store.disk.stateFile = none ∧ base = cloneJson createInitialServiceState
  counted : cursorOf (latest ahead base) = store.events.length
  candidate : latest ahead base ∈ store.before :: store.attempts
  deleted : ∀ deletion ∈ store.deletions, deletion.cursor ≤ cursorOf base
  covered : store.Covered (older ++ ahead.toList) (floorOf (latest ahead base))
    (cursorOf (latest ahead base))
  remembered : ∀ state, store.memory = some state → IsState state ∧ store.before = state ∧
    store.Covered (older ++ ahead.toList) (floorOf state) (cursorOf state)
  resolved : ∀ cursor ∈ store.resolved, cursor ≤ store.events.length

def Synced (state : JsonValue) (ahead : Option JournalRecord) (base : JsonValue) : Prop :=
  ahead = none ∧ cursorOf base = cursorOf state

def StageHolds (store : Store) (records : List JournalRecord) (ahead : Option JournalRecord)
    (base : JsonValue) : Stage → Prop
  | .idle => ∀ state, store.ready = some state → Synced state ahead base
  | .opening state => state = latest ahead base ∧ store.memory = none
  | .journaling work => ∃ state, store.ready = some state ∧ Synced state ahead base ∧
      work.record.Sound ∧ work.record.cursor = cursorOf state + 1 ∧
      options.fits work.record.nextState = true ∧ work.record.nextState ∈ store.attempts ∧
      store.Covered records (floorOf work.record.nextState) (cursorOf state)
  | .storing work => ahead = some work.record
  | .pruning pruned cursors => ∃ state, store.ready = some state ∧ Synced state ahead base ∧
      IsState pruned ∧ cursorOf pruned = cursorOf state ∧ pruned ∈ store.attempts ∧
      store.Covered records (floorOf pruned) (cursorOf pruned) ∧
      ∀ cursor ∈ cursors, cursor ≤ floorOf pruned
  | .deleting => ∀ state, store.ready = some state → Synced state ahead base

def Owned (stage : Stage) (memory : Option JsonValue) (deletion : Deletion) : Prop :=
  (deletion.awaited = true → stage = .deleting) ∧ memory.isSome = true

def Kept (store : Store) : Prop :=
  (∀ deletion ∈ store.deletions, Owned store.stage store.memory deletion) ∧
    ∃ older ahead base, store.Holds options older ahead base ∧
      store.StageHolds options (older ++ ahead.toList) ahead base store.stage

end Books

section Writing

variable {options} {store : Store} {older : List JournalRecord} {ahead : Option JournalRecord}
  {base : JsonValue}

section

variable (holds : store.Holds options older ahead base)

include holds

theorem Holds.latest_valid : IsState (latest ahead base) := by
  cases ahead with
  | none => exact holds.valid
  | some record =>
    have recordIn : record ∈ older ++ (some record).toList := by simp
    exact (holds.sound record recordIn).valid

theorem Holds.base_le : cursorOf base ≤ cursorOf (latest ahead base) := by
  cases ahead with
  | none => exact le_refl _
  | some record =>
    have recordIn : record ∈ older ++ (some record).toList := by simp
    have same := (holds.sound record recordIn).sameCursor
    have after := (holds.next record (by simp)).1
    change cursorOf base ≤ cursorOf record.nextState
    omega

theorem Holds.all_past :
    ∀ record ∈ older ++ ahead.toList, record.cursor ≤ cursorOf (latest ahead base) := by
  intro record recordIn
  cases List.mem_append.mp recordIn with
  | inl old => exact (holds.past record old).trans holds.base_le
  | inr new =>
    have same : ahead = some record := by simpa using new
    rw [same]
    exact (holds.sound record recordIn).sameCursor.ge

theorem Holds.putState {state : JsonValue}
    (valid : IsState state) (same : cursorOf state = cursorOf (latest ahead base))
    (candidate : state ∈ store.before :: store.attempts)
    (covered : store.Covered (older ++ ahead.toList) (floorOf state) (cursorOf state)) :
    (store.putState state).Holds options (older ++ ahead.toList) none state := by
  have alone : older ++ ahead.toList ++ (none : Option JournalRecord).toList
      = older ++ ahead.toList := List.append_nil _
  constructor
  · rw [alone]
    exact holds.journal
  · rw [alone]
    exact holds.sound
  · rw [alone]
    exact holds.evented
  · rw [same]
    exact holds.all_past
  · intro record recordIn
    cases recordIn
  · exact valid
  · exact .inl (congrArg some valid.normal)
  · change cursorOf state = _
    rw [same]
    exact holds.counted
  · exact candidate
  · intro deletion deletionIn
    rw [same]
    exact (holds.deleted deletion deletionIn).trans holds.base_le
  · rw [alone]
    exact covered
  · rw [alone]
    exact holds.remembered
  · exact holds.resolved

end

theorem Covered.extend {records : List JournalRecord} {floor cursor : ℕ}
    (covered : store.Covered records floor cursor) (record : JournalRecord) :
    (store.putRecord record).Covered (records ++ [record]) floor cursor := by
  intro number above below
  obtain ⟨kept, other, otherIn, named⟩ := covered number above below
  exact ⟨kept, other, List.mem_append_left _ otherIn, named⟩

theorem Holds.putRecord (holds : store.Holds options older none base) {record : JournalRecord}
    (sound : record.Sound) (following : record.cursor = cursorOf base + 1)
    (fits : options.fits record.nextState = true)
    (candidate : record.nextState ∈ store.attempts)
    (covered : store.Covered older (floorOf record.nextState) (cursorOf base)) :
    (store.putRecord record).Holds options older (some record) base := by
  have alone : older ++ (none : Option JournalRecord).toList = older := List.append_nil older
  have counted : cursorOf base = store.events.length := holds.counted
  constructor
  · have files : store.disk.journal = older.map JournalRecord.file := by
      rw [holds.journal, alone]
    have smaller : ∀ file ∈ older.map JournalRecord.file, file.1 < record.cursor := by
      intro file fileIn
      obtain ⟨other, otherIn, rfl⟩ := List.mem_map.mp fileIn
      have before := holds.past other otherIn
      change other.cursor < record.cursor
      omega
    change writeRecord record.cursor (cloneJson record.toJson) store.disk.journal = _
    rw [files, writeRecord_append smaller, List.map_append]
    rfl
  · intro other otherIn
    cases List.mem_append.mp otherIn with
    | inl old => exact holds.sound other (List.mem_append_left _ old)
    | inr new =>
      have same : other = record := by simpa using new
      rw [same]
      exact sound
  · intro other otherIn
    change (store.events ++ [cloneJson record.event])[other.cursor - 1]? = _
    cases List.mem_append.mp otherIn with
    | inl old =>
      have event := holds.evented other (List.mem_append_left _ old)
      obtain ⟨inside, -⟩ := List.getElem?_eq_some_iff.mp event
      exact (List.getElem?_append_left inside).trans event
    | inr new =>
      have same : other = record := by simpa using new
      have here : other.cursor - 1 = store.events.length := by
        rw [same]
        omega
      rw [here, same]
      exact List.getElem?_concat_length
  · exact holds.past
  · intro other otherIn
    have same : other = record := by simpa using otherIn
    rw [same]
    exact ⟨following, fits⟩
  · exact holds.valid
  · exact holds.stateFile
  · change cursorOf record.nextState = (store.events ++ [cloneJson record.event]).length
    rw [sound.sameCursor, following, counted, List.length_append, List.length_singleton]
  · exact List.mem_cons_of_mem _ candidate
  · exact holds.deleted
  · change (store.putRecord record).Covered (older ++ [record]) (floorOf record.nextState)
      (cursorOf record.nextState)
    intro number above below
    rw [sound.sameCursor, following] at below
    by_cases new : number = cursorOf base + 1
    · refine ⟨?_, record, List.mem_append_right _ (List.mem_singleton.mpr rfl), ?_⟩
      · intro deletion deletionIn
        have low := holds.deleted deletion deletionIn
        omega
      · rw [following, new]
    · exact covered.extend record number above (by omega)
  · intro state remembered
    obtain ⟨valid, same, had⟩ := holds.remembered state remembered
    rw [alone] at had
    exact ⟨valid, same, had.extend record⟩
  · intro cursor cursorIn
    have earlier := holds.resolved cursor cursorIn
    change cursor ≤ (store.events ++ [cloneJson record.event]).length
    rw [List.length_append]
    omega

section

variable (holds : store.Holds options older ahead base)

include holds

theorem Holds.forget (deletions : List Deletion)
    (fewer : ∀ deletion ∈ deletions, deletion ∈ store.deletions) :
    { store with memory := none, poisoned := false, stage := .idle, deletions := deletions }.Holds
      options older ahead base where
  journal := holds.journal
  sound := holds.sound
  evented := holds.evented
  past := holds.past
  next := holds.next
  valid := holds.valid
  stateFile := holds.stateFile
  counted := holds.counted
  candidate := holds.candidate
  deleted deletion deletionIn := holds.deleted deletion (fewer deletion deletionIn)
  covered number above below := by
    obtain ⟨kept, found⟩ := holds.covered number above below
    exact ⟨fun deletion deletionIn => kept deletion (fewer deletion deletionIn), found⟩
  remembered state remembered := by cases remembered
  resolved := holds.resolved

theorem Holds.settle (stage : Stage) :
    (store.settle (latest ahead base) stage).Holds options older ahead base where
  journal := holds.journal
  sound := holds.sound
  evented := holds.evented
  past := holds.past
  next := holds.next
  valid := holds.valid
  stateFile := holds.stateFile
  counted := holds.counted
  candidate := List.mem_cons_self
  deleted := holds.deleted
  covered := holds.covered
  remembered state remembered := by
    have same : latest ahead base = state := Option.some.inj remembered
    rw [← same]
    exact ⟨holds.latest_valid, rfl, holds.covered⟩
  resolved := holds.resolved

theorem Holds.attempt (state : JsonValue)
    (stage : Stage) : (store.attempt state stage).Holds options older ahead base where
  journal := holds.journal
  sound := holds.sound
  evented := holds.evented
  past := holds.past
  next := holds.next
  valid := holds.valid
  stateFile := holds.stateFile
  counted := holds.counted
  candidate := by
    change latest ahead base ∈ store.before :: (store.attempts ++ [state])
    rw [← List.cons_append]
    exact List.mem_append_left _ holds.candidate
  deleted := holds.deleted
  covered := holds.covered
  remembered := holds.remembered
  resolved := holds.resolved

end

end Writing

section Deleting

variable {options} {store : Store} {older : List JournalRecord} {ahead : Option JournalRecord}
  {base : JsonValue}

/-- Some files are gone, and these deletes are left. -/
def drop (store : Store) (cursors : List ℕ) (remaining : List Deletion) : Store :=
  { store.remove cursors with deletions := remaining }

/-- The files that are gone were being deleted, and no other deletes are left than there were. -/
def CanDrop (store : Store) (cursors : List ℕ) (remaining : List Deletion) : Prop :=
  (∀ cursor ∈ cursors, ∃ deletion ∈ store.deletions, deletion.cursor = cursor) ∧
    ∀ deletion ∈ remaining, ∃ earlier ∈ store.deletions, earlier.cursor = deletion.cursor

def leftOf (older : List JournalRecord) (cursors : List ℕ) : List JournalRecord :=
  older.filter fun record => record.cursor ∉ cursors

variable {remaining : List Deletion} {cursors : List ℕ}

theorem Covered.drop {floor cursor : ℕ}
    (covered : store.Covered (older ++ ahead.toList) floor cursor)
    (can : store.CanDrop cursors remaining) :
    (store.drop cursors remaining).Covered (leftOf older cursors ++ ahead.toList) floor cursor := by
  intro number above below
  obtain ⟨kept, record, recordIn, named⟩ := covered number above below
  constructor
  · intro deletion deletionIn
    obtain ⟨earlier, earlierIn, same⟩ := can.2 deletion deletionIn
    rw [← same]
    exact kept earlier earlierIn
  · refine ⟨record, ?_, named⟩
    cases List.mem_append.mp recordIn with
    | inr new => exact List.mem_append_right _ new
    | inl old =>
      have stays : record.cursor ∉ cursors := by
        intro gone
        obtain ⟨deletion, deletionIn, same⟩ := can.1 record.cursor gone
        exact kept deletion deletionIn (same.trans named)
      exact List.mem_append_left _ (List.mem_filter.mpr ⟨old, decide_eq_true stays⟩)

/-- Deletes leave the directory in order. -/
theorem Holds.drop (holds : store.Holds options older ahead base)
    (can : store.CanDrop cursors remaining) :
    (store.drop cursors remaining).Holds options (leftOf older cursors) ahead base := by
  have subset : ∀ record ∈ leftOf older cursors, record ∈ older :=
    fun record recordIn => List.mem_of_mem_filter recordIn
  have all : ∀ record ∈ leftOf older cursors ++ ahead.toList, record ∈ older ++ ahead.toList := by
    intro record recordIn
    cases List.mem_append.mp recordIn with
    | inl old => exact List.mem_append_left _ (subset record old)
    | inr new => exact List.mem_append_right _ new
  have low : ∀ cursor ∈ cursors, cursor ≤ cursorOf base := by
    intro cursor cursorIn
    obtain ⟨deletion, deletionIn, same⟩ := can.1 cursor cursorIn
    rw [← same]
    exact holds.deleted deletion deletionIn
  constructor
  · have stays : ∀ file ∈ ahead.toList.map JournalRecord.file,
        decide (file.1 ∉ cursors) = true := by
      intro file fileIn
      obtain ⟨record, recordIn, rfl⟩ := List.mem_map.mp fileIn
      have after := (holds.next record recordIn).1
      apply decide_eq_true
      intro gone
      have before : record.cursor ≤ cursorOf base := low _ gone
      omega
    change store.disk.journal.filter (fun file => file.1 ∉ cursors) = _
    rw [holds.journal, List.map_append, List.filter_append, List.filter_eq_self.mpr stays,
      List.map_append, List.filter_map]
    rfl
  · exact fun record recordIn => holds.sound record (all record recordIn)
  · exact fun record recordIn => holds.evented record (all record recordIn)
  · exact fun record recordIn => holds.past record (subset record recordIn)
  · exact holds.next
  · exact holds.valid
  · exact holds.stateFile
  · exact holds.counted
  · exact holds.candidate
  · intro deletion deletionIn
    obtain ⟨earlier, earlierIn, same⟩ := can.2 deletion deletionIn
    rw [← same]
    exact holds.deleted earlier earlierIn
  · exact holds.covered.drop can
  · intro state remembered
    obtain ⟨valid, same, covered⟩ := holds.remembered state remembered
    exact ⟨valid, same, covered.drop can⟩
  · exact holds.resolved

theorem StageHolds.drop {stage : Stage}
    (holds : store.StageHolds options (older ++ ahead.toList) ahead base stage)
    (can : store.CanDrop cursors remaining) :
    (store.drop cursors remaining).StageHolds options (leftOf older cursors ++ ahead.toList) ahead
      base stage := by
  cases stage with
  | journaling work =>
    obtain ⟨state, isReady, synced, sound, following, fits, candidate, covered⟩ := holds
    exact ⟨state, isReady, synced, sound, following, fits, candidate, covered.drop can⟩
  | pruning pruned cursors =>
    obtain ⟨state, isReady, synced, valid, same, candidate, covered, low⟩ := holds
    exact ⟨state, isReady, synced, valid, same, candidate, covered.drop can, low⟩
  | _ => exact holds

theorem remove_nil (store : Store) : store.remove [] = store := by
  have all : store.disk.journal.filter (fun file => decide (file.1 ∉ ([] : List ℕ)))
      = store.disk.journal :=
    List.filter_eq_self.mpr fun file _ => decide_eq_true List.not_mem_nil
  rw [remove, all]

end Deleting

end Store

end Holonomy.Service
