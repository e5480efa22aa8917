import Holonomy.Foundation.Fallible
import Holonomy.Service.LogPruning

/-!
# Runs of the log store

Whatever is appended, pruned and removed, and whatever the clock reads, the records carry the
numbers behind their floors, count what they hold and stay within the limits. An append fails for
its caller's sake only where the entries that a walk leaves behind fit the limits of all records
together.
-/

namespace Holonomy.Service

open Foundation

structure ConsistentLogs (numbers : NumberFormat) (limits : LogLimits) (records : List LogRecord) :
    Prop where
  once : (records.map LogRecord.processId).Nodup
  sound : ∀ record ∈ records, record.Sound numbers
  own : ∀ record ∈ records, record.events.length ≤ limits.maxEntriesPerProcess ∧
    record.totalBytes ≤ limits.maxProcessBytes
  entries : tally (fun record => record.events.length) records ≤ limits.maxTotalEntries
  bytes : tally LogRecord.totalBytes records ≤ limits.maxTotalBytes

theorem ConsistentLogs.nil {numbers : NumberFormat} {limits : LogLimits} :
    ConsistentLogs numbers limits [] where
  once := List.nodup_nil
  sound := fun _ listed => absurd listed List.not_mem_nil
  own := fun _ listed => absurd listed List.not_mem_nil
  entries := Nat.zero_le _
  bytes := Nat.zero_le _

/-- The entries that a walk leaves behind in a record. -/
def LogRecord.stays (record : LogRecord) : List LogEvent := outOfTurn 0 record.events

def LogLimits.staysFit (numbers : NumberFormat) (limits : LogLimits) (records : List LogRecord)
    (now : ℕ) : Bool :=
  let trimmed := records.map (LogRecord.trim numbers limits now)
  tally (fun record => record.stays.length) trimmed ≤ limits.maxTotalEntries &&
    tally (fun record => tally (logEventBytes numbers) record.stays) trimmed ≤ limits.maxTotalBytes

section Pruning

variable {numbers : NumberFormat} {limits : LogLimits} {record : LogRecord} {records : List LogRecord} {now : ℕ}

theorem Outlives.lighter {later : LogRecord} (outlives : Outlives record later)
    (sound : record.Sound numbers) (soundToo : later.Sound numbers) :
    later.events.length ≤ record.events.length ∧ later.totalBytes ≤ record.totalBytes := by
  obtain ⟨count, left⟩ := outlives.events
  have whole := congrArg (tally (logEventBytes numbers)) (List.take_append_drop count record.events)
  rw [tally_append, ← left, ← soundToo.bytes, ← sound.bytes] at whole
  constructor
  · rw [left, List.length_drop]
    exact Nat.sub_le _ _
  · omega

section

variable (once : (records.map LogRecord.processId).Nodup)

include once

theorem trimmed_counted
    (sound : ∀ record ∈ records, record.Sound numbers) (limits : LogLimits) (now : ℕ) :
    (trimmedEviction numbers limits records now).Counted numbers ∧
      Prunes records (trimmedEviction numbers limits records now).records ∧
      ∀ record ∈ (trimmedEviction numbers limits records now).records,
        record.events.length ≤ limits.maxEntriesPerProcess ∧
          record.totalBytes ≤ limits.maxProcessBytes := by
  have ids : (records.map (LogRecord.trim numbers limits now)).map LogRecord.processId =
      records.map LogRecord.processId := by
    rw [List.map_map]
    apply List.map_congr_left
    intro record listed
    exact ((sound record listed).trim limits now).2.1.processId
  refine ⟨⟨?_, fun record listed => ?_, rfl, rfl⟩, ⟨ids, fun record listed => ?_⟩,
    fun record listed => ?_⟩
  · change ((records.map (LogRecord.trim numbers limits now)).map LogRecord.processId).Nodup
    rw [ids]
    exact once
  · obtain ⟨before, beforeIn, same⟩ := List.mem_map.mp listed
    rw [← same]
    exact ((sound before beforeIn).trim limits now).1
  · obtain ⟨before, beforeIn, same⟩ := List.mem_map.mp listed
    rw [← same]
    exact ⟨before, beforeIn, ((sound before beforeIn).trim limits now).2.1⟩
  · obtain ⟨before, beforeIn, same⟩ := List.mem_map.mp listed
    have fits := ((sound before beforeIn).trim limits now).2.2
    rw [LogLimits.overfills, Bool.or_eq_false_iff, decide_eq_false_iff_not,
      decide_eq_false_iff_not] at fits
    rw [← same]
    omega

theorem pruneLogRecords_ok {pruned : List LogRecord} {changed : List Text}
    (sound : ∀ record ∈ records, record.Sound numbers)
    (ok : pruneLogRecords numbers localeCompare limits records now = .ok (pruned, changed)) :
    ConsistentLogs numbers limits pruned ∧ Prunes records pruned := by
  obtain ⟨counted, trims, own⟩ := trimmed_counted once sound limits now
  unfold pruneLogRecords at ok
  cases walked : Eviction.walk numbers limits ((candidateOrder localeCompare).sort
      (logCandidates (trimmedEviction numbers limits records now).records))
      (trimmedEviction numbers limits records now) with
  | error failure =>
    simp only [walked] at ok
    cases ok
  | ok final =>
    simp only [walked] at ok
    cases ok
    obtain ⟨still, prunes, inside⟩ := counted.walk walked
    rw [LogLimits.isExceeded, Bool.or_eq_false_iff, decide_eq_false_iff_not,
      decide_eq_false_iff_not, still.entries, still.bytes] at inside
    refine ⟨⟨still.once, still.sound, fun record listed => ?_, Nat.not_lt.mp inside.1,
      Nat.not_lt.mp inside.2⟩, trims.trans prunes⟩
    obtain ⟨before, beforeIn, outlives⟩ := prunes.outlives record listed
    have lighter := outlives.lighter (counted.sound before beforeIn) (still.sound record listed)
    have fits := own before beforeIn
    omega

theorem logOf_of_mem (listed : record ∈ records) : logOf records record.processId = record := by
  unfold logOf
  cases found : records.find? fun other => other.processId = record.processId with
  | none => exact absurd (decide_eq_true rfl) (List.find?_eq_none.mp found record listed)
  | some other =>
    have holds := List.find?_some found
    have same : other.processId = record.processId := of_decide_eq_true holds
    exact List.inj_on_of_nodup_map once (List.mem_of_find?_eq_some found) listed same

end

/-- Pruning ends where what a walk leaves behind fits. -/
theorem pruneLogRecords_fits (localeCompare : Precedence Text)
    (once : (records.map LogRecord.processId).Nodup)
    (sound : ∀ record ∈ records, record.Sound numbers)
    (fits : limits.staysFit numbers records now = true) :
    ∃ pruned changed,
      pruneLogRecords numbers localeCompare limits records now = .ok (pruned, changed) := by
  obtain ⟨counted, trims, -⟩ := trimmed_counted once sound limits now
  have stay : ∀ record ∈ (trimmedEviction numbers limits records now).records,
      (logOf (trimmedEviction numbers limits records now).records record.processId).stays =
        record.stays := fun record listed => by rw [logOf_of_mem counted.once listed]
  rw [LogLimits.staysFit, Bool.and_eq_true, decide_eq_true_eq, decide_eq_true_eq] at fits
  have walks := Eviction.Counted.walks limits
    (fun id => (logOf (trimmedEviction numbers limits records now).records id).stays) counted
    ((candidateOrder localeCompare).sort_sorted
      (logCandidates (trimmedEviction numbers limits records now).records)) ?_ ?_ ?_
  · obtain ⟨final, walked⟩ := walks
    refine ⟨final.records, final.changed, ?_⟩
    unfold pruneLogRecords
    simp only [walked]
    rfl
  · intro record listed
    obtain ⟨run, whole, ordered, -⟩ := outOfTurn_spec 0 record.events
    refine ⟨run, record.stays, whole, ?_, ?_, fun event eventIn => ?_⟩
    · exact (stay record listed).symm ▸ List.suffix_refl _
    · have increasing : record.events.Pairwise fun one other => one.sequence < other.sequence := by
        have sequences := (counted.sound record listed).sequences
        have sorted : (List.range' (record.floorSequence + 1) record.events.length).Pairwise
            (· < ·) := List.pairwise_lt_range'
        rw [← sequences, List.pairwise_map] at sorted
        exact sorted
      rw [whole] at increasing
      exact ordered.and (List.pairwise_append.mp increasing).1
    · rw [Precedence.mem_sort]
      refine List.mem_flatMap.mpr ⟨record, listed, List.mem_map.mpr ⟨event, ?_, rfl⟩⟩
      rw [whole]
      exact List.mem_append_left _ eventIn
  · refine le_trans (le_of_eq (tally_congr fun record listed => ?_)) fits.1
    rw [stay record listed]
  · refine le_trans (le_of_eq (tally_congr fun record listed => ?_)) fits.2
    rw [stay record listed]

theorem ConsistentLogs.staysFit (consistent : ConsistentLogs numbers limits records) (now : ℕ) :
    limits.staysFit numbers records now = true := by
  have fewer : ∀ record ∈ records,
      (record.trim numbers limits now).stays.length ≤ record.events.length ∧
        tally (logEventBytes numbers) (record.trim numbers limits now).stays ≤
          record.totalBytes := by
    intro record listed
    obtain ⟨sound, outlives, -⟩ := (consistent.sound record listed).trim limits now
    have lighter := outlives.lighter (consistent.sound record listed) sound
    obtain ⟨run, whole, -, -⟩ := outOfTurn_spec 0 (record.trim numbers limits now).events
    have lengths := congrArg List.length whole
    have weights := congrArg (tally (logEventBytes numbers)) whole
    rw [List.length_append] at lengths
    rw [tally_append, ← sound.bytes] at weights
    unfold LogRecord.stays
    omega
  have entries := consistent.entries
  have bytes := consistent.bytes
  rw [LogLimits.staysFit, Bool.and_eq_true, decide_eq_true_eq, decide_eq_true_eq, tally_map,
    tally_map]
  exact ⟨(tally_le fun record listed => (fewer record listed).1).trans entries,
    (tally_le fun record listed => (fewer record listed).2).trans bytes⟩

end Pruning

section Calls

variable {numbers : NumberFormat} {localeCompare : Precedence Text} {limits : LogLimits}

def BlamesCaller (failure : Failure) : Prop :=
  ∃ message, failure = .service .invalidRequest message ∨ failure = .service .limitExceeded message

variable {value : Option JsonValue} {label : String} {failure : Failure} {max now sequence time : ℕ}
  {input : JsonValue} {values : List JsonValue} {record : LogRecord} {records : List LogRecord}
  {processId : Text}

theorem requireRecord_blames (failed : requireRecord value label = .error failure) :
    BlamesCaller failure := by
  unfold requireRecord at failed
  split at failed
  · cases failed
  · cases failed
    exact ⟨_, .inl rfl⟩

theorem requireInteger_blames {min : ℕ}
    (failed : requireInteger value label min max = .error failure) : BlamesCaller failure := by
  unfold requireInteger at failed
  split at failed
  · split_ifs at failed
    cases failed
    exact ⟨_, .inl rfl⟩
  · cases failed
    exact ⟨_, .inl rfl⟩

theorem requireString_blames (failed : requireString value label max = .error failure) :
    BlamesCaller failure := by
  unfold requireString at failed
  split at failed
  · split_ifs at failed
    cases failed
    exact ⟨_, .inl rfl⟩
  · cases failed
    exact ⟨_, .inl rfl⟩

theorem requireIdentifier_blames {value : Text}
    (failed : requireIdentifier value label = .error failure) : BlamesCaller failure := by
  unfold requireIdentifier at failed
  split_ifs at failed
  cases failed
  exact ⟨_, .inl rfl⟩

theorem requireIdentifier_ok {value id : Text} (ok : requireIdentifier value label = .ok id) :
    id = value := by
  unfold requireIdentifier at ok
  split_ifs at ok
  · cases ok
    rfl
  · cases ok

theorem logTimestamp_blames (failed : logTimestamp now = .error failure) :
    BlamesCaller failure := by
  unfold logTimestamp at failed
  split_ifs at failed
  cases failed
  exact ⟨_, .inl rfl⟩

theorem logSource_blames {value : JsonValue} (failed : logSource value = .error failure) :
    BlamesCaller failure := by
  unfold logSource at failed
  split at failed
  · cases failed
  · rename_i source _
    cases required : requireInteger (some source) "Process log source sequence" 0
        maxSafeInteger with
    | error other =>
      rw [required] at failed
      cases failed
      exact requireInteger_blames required
    | ok number =>
      rw [required] at failed
      cases failed

theorem normalizeLogInput_blames (failed : normalizeLogInput input sequence time = .error failure) :
    BlamesCaller failure := by
  rcases failed_of_bind failed with bad | ⟨value, -, failed⟩
  · exact requireRecord_blames bad
  split at failed
  · rcases failed_of_bind failed with bad | ⟨generation, -, failed⟩
    · exact requireInteger_blames bad
    rcases failed_of_bind failed with bad | ⟨source, -, failed⟩
    · exact logSource_blames bad
    rcases failed_of_bind failed with bad | ⟨stream, -, failed⟩
    · exact requireString_blames bad
    · cases failed
  · cases failed
    exact ⟨_, .inl rfl⟩

theorem normalizeLogInput_ok {event : LogEvent}
    (ok : normalizeLogInput input sequence time = .ok event) : event.sequence = sequence := by
  obtain ⟨value, -, ok⟩ := found_of_bind ok
  split at ok
  · obtain ⟨generation, -, ok⟩ := found_of_bind ok
    obtain ⟨source, -, ok⟩ := found_of_bind ok
    obtain ⟨stream, -, ok⟩ := found_of_bind ok
    cases ok
    rfl
  · cases ok

theorem appendEntries_blames
    (failed : appendEntries numbers limits now values record = .error failure) :
    BlamesCaller failure := by
  induction values generalizing record with
  | nil => cases failed
  | cons value values ih =>
    rw [appendEntries] at failed
    split_ifs at failed
    · cases failed
      exact ⟨_, .inr rfl⟩
    · rcases failed_of_bind failed with bad | ⟨event, -, failed⟩
      · exact normalizeLogInput_blames bad
      simp only at failed
      split_ifs at failed
      · cases failed
        exact ⟨_, .inr rfl⟩
      · rcases failed_of_bind failed with bad | ⟨full, -, failed⟩
        · exact ih bad
        · cases failed

theorem appendEntries_ok {full : LogRecord} {appended : List LogEvent}
    (sound : record.Sound numbers)
    (ok : appendEntries numbers limits now values record = .ok (full, appended)) :
    full.Sound numbers ∧ full.processId = record.processId ∧
      full.floorSequence = record.floorSequence ∧ full.events = record.events ++ appended := by
  induction values generalizing record appended with
  | nil =>
    cases ok
    exact ⟨sound, rfl, rfl, (List.append_nil _).symm⟩
  | cons value values ih =>
    rw [appendEntries] at ok
    split_ifs at ok
    · cases ok
    · obtain ⟨event, taken, ok⟩ := found_of_bind ok
      simp only at ok
      split_ifs at ok
      · cases ok
      · obtain ⟨⟨last, rest⟩, more, ok⟩ := found_of_bind ok
        cases ok
        have number := normalizeLogInput_ok taken
        have next := sound.next
        have longer : (record.extended numbers event).Sound numbers := by
          refine ⟨?_, ?_, ?_⟩
          · have behind : record.floorSequence + 1 + record.events.length = event.sequence := by
              omega
            change (record.events ++ [event]).map LogEvent.sequence =
              List.range' (record.floorSequence + 1) (record.events ++ [event]).length
            rw [List.map_append, List.map_singleton, List.length_append, List.length_singleton,
              List.range'_1_concat, sound.sequences, behind]
          · change record.nextSequence + 1 =
              record.floorSequence + (record.events ++ [event]).length + 1
            rw [List.length_append, List.length_singleton]
            omega
          · change record.totalBytes + logEventBytes numbers event =
              tally (logEventBytes numbers) (record.events ++ [event])
            rw [tally_append, tally_cons, tally_nil, sound.bytes, Nat.add_zero]
        obtain ⟨still, id, floor, events⟩ := ih longer more
        refine ⟨still, id, floor, ?_⟩
        rw [events]
        exact List.append_assoc record.events [event] rest

theorem ConsistentLogs.logOf (consistent : ConsistentLogs numbers limits records)
    (processId : Text) :
    (logOf records processId).Sound numbers ∧ (logOf records processId).processId = processId := by
  unfold Service.logOf
  cases found : records.find? fun record => record.processId = processId with
  | none => exact ⟨⟨rfl, rfl, rfl⟩, rfl⟩
  | some record =>
    have holds := List.find?_some found
    exact ⟨consistent.sound record (List.mem_of_find?_eq_some found), of_decide_eq_true holds⟩

theorem mem_putLog {other : LogRecord} (listed : other ∈ putLog records record) :
    other = record ∨ other ∈ records ∧ other.processId ≠ record.processId := by
  unfold putLog at listed
  split_ifs at listed with known
  · obtain ⟨kept, keptIn, same⟩ := mem_modifyAt.mp listed
    by_cases own : kept.processId = record.processId
    · rw [if_pos own] at same
      exact .inl same.symm
    · rw [if_neg own] at same
      rw [← same]
      exact .inr ⟨keptIn, own⟩
  · rcases List.mem_append.mp listed with old | new'
    · refine .inr ⟨old, fun same => known ?_⟩
      exact List.any_eq_true.mpr ⟨other, old, decide_eq_true same⟩
    · exact .inl (List.mem_singleton.mp new')

theorem ids_putLog (records : List LogRecord) (record : LogRecord) :
    (∀ id ∈ records.map LogRecord.processId, id ∈ (putLog records record).map LogRecord.processId) ∧
      ((records.map LogRecord.processId).Nodup →
        ((putLog records record).map LogRecord.processId).Nodup) := by
  unfold putLog
  split_ifs with known
  · have ids : (modifyAt LogRecord.processId record.processId (fun _ => record) records).map
        LogRecord.processId = records.map LogRecord.processId := by
      rw [modifyAt, List.map_map]
      apply List.map_congr_left
      intro kept _
      rw [Function.comp_apply]
      split_ifs with own
      · exact own.symm
      · rfl
    rw [ids]
    exact ⟨fun _ listed => listed, id⟩
  · rw [List.map_append, List.map_singleton]
    refine ⟨fun id listed => List.mem_append_left _ listed, fun once => ?_⟩
    refine nodup_concat once fun listed => ?_
    obtain ⟨kept, keptIn, same⟩ := List.mem_map.mp listed
    exact known (List.any_eq_true.mpr ⟨kept, keptIn, decide_eq_true same⟩)

structure Drafted (numbers : NumberFormat) (records : List LogRecord) (draft : LogDraft)
    : Prop where
  once : (draft.records.map LogRecord.processId).Nodup
  sound : ∀ record ∈ draft.records, record.Sound numbers
  ids : ∀ id ∈ records.map LogRecord.processId, id ∈ draft.records.map LogRecord.processId
  grown : ∀ record ∈ records, ∀ grown ∈ draft.records, grown.processId = record.processId →
    grown.floorSequence = record.floorSequence ∧ ∃ added, grown.events = record.events ++ added ∧
      (added = [] ∨ draft.processId = record.processId)

theorem draftLog_blames
    (failed : draftLog numbers limits records processId input now = .error failure) :
    BlamesCaller failure := by
  rcases failed_of_bind failed with bad | ⟨id, -, failed⟩
  · exact requireIdentifier_blames bad
  split_ifs at failed
  · cases failed
    exact ⟨_, .inr rfl⟩
  · rcases failed_of_bind failed with bad | ⟨time, -, failed⟩
    · exact logTimestamp_blames bad
    rcases failed_of_bind failed with bad | ⟨full, -, failed⟩
    · exact appendEntries_blames bad
    · cases failed

theorem ConsistentLogs.draftLog (consistent : ConsistentLogs numbers limits records)
    {draft : LogDraft}
    (ok : draftLog numbers limits records processId input now = .ok (some draft)) :
    Drafted numbers records draft ∧ draft.processId = processId := by
  obtain ⟨id, identified, ok⟩ := found_of_bind ok
  rw [requireIdentifier_ok identified] at ok
  split_ifs at ok
  · cases ok
  · cases ok
  obtain ⟨time, -, ok⟩ := found_of_bind ok
  obtain ⟨⟨full, appended⟩, entered, ok⟩ := found_of_bind ok
  cases ok
  have before := consistent.logOf processId
  obtain ⟨sound, own, floor, events⟩ := appendEntries_ok before.1 entered
  rw [before.2] at own
  have ids := ids_putLog records full
  refine ⟨⟨ids.2 consistent.once, fun record listed => ?_, ids.1,
    fun record listed grown grownIn same => ?_⟩, rfl⟩
  · rcases mem_putLog listed with isFull | ⟨old, -⟩
    · rw [isFull]
      exact sound
    · exact consistent.sound record old
  · rcases mem_putLog grownIn with isFull | ⟨old, -⟩
    · rw [isFull, own] at same
      have whole := logOf_of_mem consistent.once listed
      rw [← same] at whole
      rw [isFull, floor, events, whole]
      exact ⟨rfl, appended, rfl, .inr same⟩
    · rw [List.inj_on_of_nodup_map consistent.once old listed same]
      exact ⟨rfl, [], (List.append_nil _).symm, .inl rfl⟩

end Calls

namespace LogCall

def appendsTo (id : Text) : LogCall → Prop
  | append processId _ _ => processId = id
  | appendMany processId _ _ => processId = id
  | _ => False

structure Follows (call : LogCall) (records later : List LogRecord) : Prop where
  remains : ∀ record ∈ records, call = .remove record.processId ∨
    record.processId ∈ later.map LogRecord.processId
  floors : ∀ record ∈ records, ∀ survivor ∈ later, survivor.processId = record.processId →
    record.floorSequence ≤ survivor.floorSequence
  suffixes : ∀ record ∈ records, ∀ survivor ∈ later, survivor.processId = record.processId →
    ∃ added count, survivor.events = (record.events ++ added).drop count ∧
      (added = [] ∨ call.appendsTo record.processId)

variable (numbers : NumberFormat) (localeCompare : Precedence Text) (limits : LogLimits)

structure Served (records : List LogRecord) (call : LogCall) : Prop where
  fails : ∀ failure, call.outcome numbers localeCompare limits records = .error failure →
    BlamesCaller failure ∧ call.next numbers localeCompare limits records = records
  succeeds : ∀ answer, call.outcome numbers localeCompare limits records = .ok answer →
    call.next numbers localeCompare limits records = answer.records ∧
      ConsistentLogs numbers limits answer.records ∧ call.Follows records answer.records

def draft (records : List LogRecord) : LogCall → Except Failure (Option LogDraft)
  | append processId input now => draftLog numbers limits records processId input now
  | appendMany processId (.array values) now =>
    draftLog numbers limits records processId (.array values) now
  | _ => .ok none

/-- Where an append comes to pruning, what a walk leaves behind fits. -/
def isOrderly (records : List LogRecord) (call : LogCall) : Bool :=
  match call.draft numbers limits records with
  | .ok (some draft) => limits.staysFit numbers draft.records draft.time
  | _ => true

section Serving

variable {numbers : NumberFormat} {localeCompare : Precedence Text} {limits : LogLimits}

variable {records : List LogRecord} {answer : LogAnswer} {call : LogCall} {processId : Text}
  {input : JsonValue} {now : ℕ} {failure : Failure}

theorem follows_pruneDraft {draft : LogDraft} (appends : call.appendsTo draft.processId)
    (drafted : Drafted numbers records draft)
    (ok : pruneDraft numbers localeCompare limits draft = .ok answer) :
    ConsistentLogs numbers limits answer.records ∧ call.Follows records answer.records := by
  obtain ⟨⟨pruned, changed⟩, made, ok⟩ := found_of_bind ok
  cases ok
  obtain ⟨consistent, prunes⟩ := pruneLogRecords_ok drafted.once drafted.sound made
  have both : ∀ record ∈ records, ∀ survivor ∈ pruned, survivor.processId = record.processId →
      ∃ grown ∈ draft.records, Outlives grown survivor ∧ grown.processId = record.processId := by
    intro record _ survivor listed same
    obtain ⟨grown, grownIn, outlives⟩ := prunes.outlives survivor listed
    exact ⟨grown, grownIn, outlives, outlives.processId.symm.trans same⟩
  refine ⟨consistent, ⟨fun record listed => .inr ?_,
    fun record listed survivor survivorIn same => ?_,
    fun record listed survivor survivorIn same => ?_⟩⟩
  · rw [prunes.ids]
    exact drafted.ids _ (List.mem_map_of_mem listed)
  · obtain ⟨grown, grownIn, outlives, own⟩ := both record listed survivor survivorIn same
    rw [← (drafted.grown record listed grown grownIn own).1]
    exact outlives.floor
  · obtain ⟨grown, grownIn, outlives, own⟩ := both record listed survivor survivorIn same
    obtain ⟨added, events, added'⟩ := (drafted.grown record listed grown grownIn own).2
    obtain ⟨count, left⟩ := outlives.events
    refine ⟨added, count, by rw [left, events], ?_⟩
    rcases added' with nothing | here
    · exact .inl nothing
    · rw [here] at appends
      exact .inr appends

theorem follows_refl (call : LogCall) (consistent : ConsistentLogs numbers limits records) :
    call.Follows records records := by
  have same : ∀ record ∈ records, ∀ survivor ∈ records,
      survivor.processId = record.processId → survivor = record :=
    fun record listed survivor survivorIn own =>
      List.inj_on_of_nodup_map consistent.once survivorIn listed own
  refine ⟨fun record listed => .inr (List.mem_map_of_mem listed),
    fun record listed survivor survivorIn own => ?_, fun record listed survivor survivorIn own =>
      ⟨[], 0, ?_, .inl rfl⟩⟩
  · rw [same record listed survivor survivorIn own]
  · rw [same record listed survivor survivorIn own, List.append_nil, List.drop_zero]

section

variable (consistent : ConsistentLogs numbers limits records)

include consistent

theorem append_fails
    (orderly : (append processId input now).isOrderly numbers limits records = true)
    (failed : appendLog numbers localeCompare limits records processId input now = .error failure) :
    BlamesCaller failure := by
  rcases failed_of_bind failed with bad | ⟨drafted, ok, failed⟩
  · exact draftLog_blames bad
  cases drafted with
  | none => cases failed
  | some draft =>
    obtain ⟨whole, -⟩ := consistent.draftLog ok
    unfold isOrderly at orderly
    rw [LogCall.draft, ok] at orderly
    obtain ⟨pruned, changed, made⟩ :=
      pruneLogRecords_fits localeCompare whole.once whole.sound orderly
    simp only [pruneDraft, made] at failed
    cases failed

theorem append_succeeds (appends : call.appendsTo processId)
    (ok : appendLog numbers localeCompare limits records processId input now = .ok answer) :
    ConsistentLogs numbers limits answer.records ∧ call.Follows records answer.records := by
  obtain ⟨drafted, made, ok⟩ := found_of_bind ok
  cases drafted with
  | none =>
    cases ok
    exact ⟨consistent, follows_refl call consistent⟩
  | some draft =>
    obtain ⟨whole, own⟩ := consistent.draftLog made
    rw [← own] at appends
    exact follows_pruneDraft appends whole ok

theorem prune_served (now : ℕ) :
    (∀ failure, pruneLogs numbers localeCompare limits records now = .error failure →
      BlamesCaller failure) ∧
    ∀ answer, pruneLogs numbers localeCompare limits records now = .ok answer →
      ConsistentLogs numbers limits answer.records ∧
        (prune now).Follows records answer.records := by
  constructor
  · intro failure failed
    rcases failed_of_bind failed with bad | ⟨time, -, failed⟩
    · exact logTimestamp_blames bad
    obtain ⟨pruned, changed, made⟩ := pruneLogRecords_fits localeCompare
      consistent.once consistent.sound (consistent.staysFit time)
    simp only [made] at failed
    cases failed
  · intro answer ok
    obtain ⟨time, -, ok⟩ := found_of_bind ok
    obtain ⟨⟨pruned, changed⟩, made, ok⟩ := found_of_bind ok
    cases ok
    obtain ⟨still, prunes⟩ := pruneLogRecords_ok consistent.once consistent.sound made
    have same : ∀ record ∈ records, ∀ survivor ∈ pruned,
        survivor.processId = record.processId → Outlives record survivor := by
      intro record listed survivor survivorIn own
      obtain ⟨before, beforeIn, outlives⟩ := prunes.outlives survivor survivorIn
      have ids : before.processId = record.processId := outlives.processId.symm.trans own
      rw [← List.inj_on_of_nodup_map consistent.once beforeIn listed ids]
      exact outlives
    refine ⟨still, ⟨fun record listed => .inr ?_, fun record listed survivor survivorIn own => ?_,
      fun record listed survivor survivorIn own => ?_⟩⟩
    · rw [prunes.ids]
      exact List.mem_map_of_mem listed
    · exact (same record listed survivor survivorIn own).floor
    · obtain ⟨count, left⟩ := (same record listed survivor survivorIn own).events
      exact ⟨[], count, by rw [left, List.append_nil], .inl rfl⟩

theorem remove_served (processId : Text) :
    (∀ failure, removeLog records processId = .error failure → BlamesCaller failure) ∧
    ∀ answer, removeLog records processId = .ok answer →
      ConsistentLogs numbers limits answer.records ∧
        (remove processId).Follows records answer.records := by
  constructor
  · intro failure failed
    rcases failed_of_bind failed with bad | ⟨id, -, failed⟩
    · exact requireIdentifier_blames bad
    · cases failed
  · intro answer ok
    obtain ⟨id, identified, ok⟩ := found_of_bind ok
    cases ok
    rw [requireIdentifier_ok identified]
    have sublist : (without LogRecord.processId processId records).Sublist records :=
      without_sublist processId
    have same : ∀ record ∈ records, ∀ survivor ∈ without LogRecord.processId processId records,
        survivor.processId = record.processId → survivor = record :=
      fun record listed survivor survivorIn own => List.inj_on_of_nodup_map consistent.once
        (of_mem_without survivorIn).1 listed own
    refine ⟨⟨consistent.once.sublist (sublist.map _),
      fun record listed => consistent.sound record (of_mem_without listed).1,
      fun record listed => consistent.own record (of_mem_without listed).1,
      (List.Sublist.sum_le_sum (sublist.map _) fun _ _ => Nat.zero_le _).trans consistent.entries,
      (List.Sublist.sum_le_sum (sublist.map _) fun _ _ => Nat.zero_le _).trans consistent.bytes⟩,
      ⟨fun record listed => ?_, fun record listed survivor survivorIn own => ?_,
        fun record listed survivor survivorIn own => ⟨[], 0, ?_, .inl rfl⟩⟩⟩
    · by_cases removed : record.processId = processId
      · exact .inl (congrArg remove removed.symm)
      · exact .inr (List.mem_map_of_mem (mem_without listed removed))
    · rw [same record listed survivor survivorIn own]
    · rw [same record listed survivor survivorIn own, List.append_nil, List.drop_zero]

theorem succeeds (call : LogCall)
    (ok : call.outcome numbers localeCompare limits records = .ok answer) :
    ConsistentLogs numbers limits answer.records ∧ call.Follows records answer.records := by
  cases call with
  | append processId input now => exact append_succeeds consistent rfl ok
  | appendMany processId input now =>
    cases input with
    | array values => exact append_succeeds consistent rfl ok
    | _ => cases ok
  | prune now => exact (prune_served consistent now).2 answer ok
  | remove processId => exact (remove_served consistent processId).2 answer ok

theorem fails (orderly : call.isOrderly numbers limits records = true)
    (failed : call.outcome numbers localeCompare limits records = .error failure) :
    BlamesCaller failure := by
  cases call with
  | append processId input now => exact append_fails consistent orderly failed
  | appendMany processId input now =>
    cases input with
    | array values => exact append_fails consistent orderly failed
    | _ =>
      cases failed
      exact ⟨_, .inl rfl⟩
  | prune now => exact (prune_served consistent now).1 failure failed
  | remove processId => exact (remove_served consistent processId).1 failure failed

theorem next_consistent (call : LogCall) :
    ConsistentLogs numbers limits (call.next numbers localeCompare limits records) := by
  unfold next
  split
  · exact (succeeds consistent call ‹_›).1
  · exact consistent

end

end Serving

/-- In every run the records are consistent, and every call is served of which a walk, if it comes
to one, leaves nothing behind but what fits. -/
theorem logs_served (calls : List LogCall) (records : List LogRecord)
    (reached : (machine numbers localeCompare limits).Reaches calls records) :
    ConsistentLogs numbers limits records ∧
      ∀ call : LogCall, call.isOrderly numbers limits records = true →
        call.Served numbers localeCompare limits records := by
  have consistent : ConsistentLogs numbers limits records := by
    refine reached.invariant ?_ ?_
    · exact .nil
    · intro before call behind kept stepped
      cases stepped
      exact next_consistent kept call
  refine ⟨consistent, fun call orderly =>
    ⟨fun failure failed => ⟨fails consistent orderly failed, ?_⟩,
    fun answer ok => ⟨?_, succeeds consistent call ok⟩⟩⟩
  · unfold next
    rw [failed]
  · unfold next
    rw [ok]

def twoEntryLimits : LogLimits :=
  ⟨16, 4096, 8192, 2, 1000, by decide, by decide, by decide, by decide, by decide⟩

def logInput (chunk : String) : JsonValue :=
  .object [(js "chunk", .string (js chunk)), (js "generation", .number 1),
    (js "stream", .string (js "stdout"))]

/-- Entries whose times go forth. -/
def steadyCalls : List LogCall :=
  [.append (js "p") (logInput "a") 100, .append (js "q") (logInput "b") 101,
    .append (js "p") (.array [logInput "c", logInput "d"]) 102, .prune 103, .remove (js "q")]

/-- Two entries are left behind steady calls, which are all served. -/
theorem logs_served_steady : ∃ records : List LogRecord,
    records.map (fun record => record.events.map LogEvent.sequence) = [[2, 3]] ∧
      ConsistentLogs Kernel.decimalFormat twoEntryLimits records ∧
      (prune 104).Served Kernel.decimalFormat (.ofLinear Text) twoEntryLimits records := by
  have ran : (((machine Kernel.decimalFormat (.ofLinear Text) twoEntryLimits).run steadyCalls).map
      fun records => records.map fun record => record.events.map LogEvent.sequence) =
        some [[2, 3]] := by
    decide +kernel
  obtain ⟨records, reached, left⟩ := Machine.exists_of_run ran
  have served := logs_served Kernel.decimalFormat (.ofLinear Text) twoEntryLimits
    steadyCalls records
    reached
  exact ⟨records, left, served.1, served.2 (prune 104) rfl⟩

/-- Entries whose times go back. -/
def steppingBack : List LogCall :=
  [.append (js "p") (logInput "a") 100, .append (js "p") (logInput "b") 50]

/-- A batch that finds no room behind them. -/
def refusedBatch : LogCall := .append (js "p") (.array [logInput "c", logInput "d"]) 60

def isCorrupt : Except Failure LogAnswer → Bool
  | .error (.service .stateCorrupt _) => true
  | _ => false

/-- A batch fails for no fault of its caller where times have gone back. -/
theorem batch_refused : ¬ ∀ (numbers : NumberFormat) (localeCompare : Precedence Text)
    (limits : LogLimits) (calls : List LogCall) (records : List LogRecord),
    (machine numbers localeCompare limits).Reaches calls records →
      ∀ call : LogCall, call.Served numbers localeCompare limits records := by
  intro claimed
  have ran : (((machine Kernel.decimalFormat (.ofLinear Text) twoEntryLimits).run steppingBack).map
      fun records => isCorrupt (refusedBatch.outcome Kernel.decimalFormat (.ofLinear Text)
        twoEntryLimits records)) = some true := by
    decide +kernel
  obtain ⟨records, reached, corrupt⟩ := Machine.exists_of_run ran
  have served := claimed Kernel.decimalFormat (.ofLinear Text) twoEntryLimits steppingBack records
    reached refusedBatch
  have fails := served.fails
  revert corrupt fails
  generalize refusedBatch.outcome Kernel.decimalFormat (.ofLinear Text) twoEntryLimits records =
    outcome
  intro corrupt fails
  unfold isCorrupt at corrupt
  split at corrupt
  · obtain ⟨message, invalid | exceeded⟩ := (fails _ rfl).1
    · cases invalid
    · cases exceeded
  · cases corrupt

end LogCall

end Holonomy.Service
