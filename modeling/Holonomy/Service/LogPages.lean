import Holonomy.Service.LogRuns

/-!
# Pages of a process log

A page takes the entries behind a cursor, leaves out those of other generations and stops when it
is full; its cursor is the last entry that it looked at. A client that asks for page after page
receives what was appended behind its first cursor once each and in order, until an entry that it
has not seen is pruned. Exactly then its next page fails.
-/

namespace Holonomy.Service

open Foundation

/-- The error `service.cursor_expired`, with the first cursor that has not expired. -/
structure CursorExpired where
  earliestCursor : ℕ
deriving DecidableEq

/-- A page: the cursor for the next one, and what the client is given. -/
structure LogPage where
  cursor : ℕ
  events : List JsonValue

/-- A page with an entry more. -/
def LogPage.extended (page : LogPage) (event : LogEvent) : LogPage :=
  ⟨event.sequence, page.events ++ [publicLogEvent event]⟩

/-- An entry is of the generation that is asked for, if one is. -/
def LogEvent.isOf (generation : Option ℕ) (event : LogEvent) : Bool :=
  generation.all fun wanted => event.generation = wanted

/-- The page that is made of entries, with what is on it so far. -/
def pageEntries (after limit : ℕ) (generation : Option ℕ) : List LogEvent → LogPage → LogPage
  | [], page => page
  | event :: events, page =>
    if event.sequence ≤ after then pageEntries after limit generation events page
    else if event.isOf generation = false then
      pageEntries after limit generation events { page with cursor := event.sequence }
    else if (page.extended event).events.length = limit then page.extended event
    else pageEntries after limit generation events (page.extended event)

/-- A page of a log. -/
def pageLogRecord (record : LogRecord) (after limit : ℕ) (generation : Option ℕ) :
    Except CursorExpired LogPage :=
  if after < record.floorSequence then .error ⟨record.floorSequence + 1⟩
  else .ok (pageEntries after limit generation record.events ⟨after, []⟩)

/-- A page of the log of a process, with options that are valid. -/
def pageLog (records : List LogRecord) (processId : Text) (after limit : ℕ)
    (generation : Option ℕ) : Except CursorExpired LogPage :=
  match records.find? fun record => record.processId = processId with
  | none => .ok ⟨after, []⟩
  | some record => pageLogRecord record after limit generation

/-- The entries of a generation behind one number and up to another. -/
def LogEvent.between (after upTo : ℕ) (generation : Option ℕ) (event : LogEvent) : Bool :=
  decide (after < event.sequence) && decide (event.sequence ≤ upTo) && event.isOf generation

/-- Entries in the order of their numbers. -/
def Ordered (events : List LogEvent) : Prop :=
  events.Pairwise fun event later => event.sequence < later.sequence

theorem LogEvent.between_iff {after upTo : ℕ} {generation : Option ℕ} {event : LogEvent} :
    event.between after upTo generation = true ↔
      (after < event.sequence ∧ event.sequence ≤ upTo) ∧ event.isOf generation = true := by
  rw [between, Bool.and_eq_true, Bool.and_eq_true, decide_eq_true_eq, decide_eq_true_eq]

variable {events : List LogEvent}

/-- Up to a number there are those up to a lower one, and those in between. -/
theorem filter_between (ordered : Ordered events) {after middle upTo : ℕ}
    (lower : after ≤ middle) (upper : middle ≤ upTo) (generation : Option ℕ) :
    events.filter (LogEvent.between after upTo generation) =
      events.filter (LogEvent.between after middle generation) ++
        events.filter (LogEvent.between middle upTo generation) := by
  induction events with
  | nil => rfl
  | cons event rest ih =>
    obtain ⟨first, ordered⟩ := List.pairwise_cons.mp ordered
    by_cases seen : event.sequence ≤ middle
    · have whole : event.between after upTo generation = event.between after middle generation := by
        rw [Bool.eq_iff_iff, LogEvent.between_iff, LogEvent.between_iff]
        exact and_congr_left' (by omega)
      have out : ¬ event.between middle upTo generation = true := fun inside =>
        Nat.not_lt.mpr seen (LogEvent.between_iff.mp inside).1.1
      rw [List.filter_cons, List.filter_cons, List.filter_cons_of_neg out, whole, ih ordered]
      split
      · rfl
      · rfl
    · have whole : event.between after upTo generation = event.between middle upTo generation := by
        rw [Bool.eq_iff_iff, LogEvent.between_iff, LogEvent.between_iff]
        exact and_congr_left' (by omega)
      have none' : ∀ other ∈ event :: rest, ¬ other.between after middle generation = true := by
        refine List.forall_mem_cons.mpr ⟨fun inside => seen (LogEvent.between_iff.mp inside).1.2,
          fun other listed inside => ?_⟩
        have order := first other listed
        have early := (LogEvent.between_iff.mp inside).1.2
        omega
      have noRest := List.filter_eq_nil_iff.mpr (List.forall_mem_cons.mp none').2
      rw [List.filter_eq_nil_iff.mpr none', List.nil_append, List.filter_cons, List.filter_cons,
        whole, ih ordered, noRest, List.nil_append]

/-- A page gives the entries up to its own cursor, and unless it is full it has looked at all. -/
theorem pageEntries_spec {after limit : ℕ} {generation : Option ℕ}
    (ordered : Ordered events) {page last : LogPage} (begun : after ≤ page.cursor)
    (behind : ∀ event ∈ events, after < event.sequence → page.cursor < event.sequence)
    (same : pageEntries after limit generation events page = last) :
    page.cursor ≤ last.cursor ∧
      last.events = page.events ++
        (events.filter (LogEvent.between after last.cursor generation)).map publicLogEvent ∧
      (last.events.length ≠ limit → ∀ event ∈ events, event.sequence ≤ last.cursor) ∧
      (last.cursor = page.cursor ∨ ∃ event ∈ events, event.sequence = last.cursor) := by
  induction events generalizing page with
  | nil =>
    rw [pageEntries] at same
    rw [← same]
    refine ⟨le_rfl, (List.append_nil _).symm, fun _ event listed => ?_, .inl rfl⟩
    cases listed
  | cons event rest ih =>
    obtain ⟨first, ordered⟩ := List.pairwise_cons.mp ordered
    have later : (∃ other ∈ rest, other.sequence = last.cursor) →
        ∃ other ∈ event :: rest, other.sequence = last.cursor := fun ⟨other, listed, ends⟩ =>
      ⟨other, List.mem_cons_of_mem _ listed, ends⟩
    have here : event.sequence = last.cursor →
        ∃ other ∈ event :: rest, other.sequence = last.cursor := fun ends =>
      ⟨event, List.mem_cons_self, ends⟩
    rw [pageEntries] at same
    split at same
    next seen =>
      obtain ⟨forth, given, whole, last'⟩ := ih ordered begun
        (fun other listed => behind other (List.mem_cons_of_mem _ listed)) same
      have out : ¬ event.between after last.cursor generation = true := fun inside =>
        Nat.not_lt.mpr seen (LogEvent.between_iff.mp inside).1.1
      rw [List.filter_cons_of_neg out]
      exact ⟨forth, given, fun open_ => List.forall_mem_cons.mpr
        ⟨seen.trans (begun.trans forth), whole open_⟩, last'.imp_right later⟩
    next new' =>
    have new' := Nat.lt_of_not_le new'
    have further := behind event List.mem_cons_self new'
    have next : ∀ other ∈ rest, after < other.sequence → event.sequence < other.sequence :=
      fun other listed _ => first other listed
    split at same
    next otherwise =>
      obtain ⟨forth, given, whole, last'⟩ := @ih ordered { page with cursor := event.sequence }
        (begun.trans further.le) next same
      have out : ¬ event.between after last.cursor generation = true := fun inside =>
        Bool.eq_false_iff.mp otherwise (LogEvent.between_iff.mp inside).2
      rw [List.filter_cons_of_neg out]
      exact ⟨further.le.trans forth, given, fun open_ => List.forall_mem_cons.mpr
        ⟨forth, whole open_⟩, .inr (last'.elim (fun ends => here ends.symm) later)⟩
    next wanted =>
    have wanted := Bool.eq_true_of_not_eq_false wanted
    split at same
    next full =>
      have taken := LogEvent.between_iff.mpr ⟨⟨new', le_refl event.sequence⟩, wanted⟩
      have rest' : rest.filter (LogEvent.between after event.sequence generation) = [] := by
        refine List.filter_eq_nil_iff.mpr fun other listed inside => ?_
        have early := (LogEvent.between_iff.mp inside).1.2
        have order := first other listed
        omega
      have cursor : (page.extended event).cursor = event.sequence := rfl
      rw [← same, cursor, List.filter_cons_of_pos taken, rest']
      exact ⟨further.le, rfl, fun open_ => absurd full open_, .inr ⟨event, List.mem_cons_self, rfl⟩⟩
    next =>
      obtain ⟨forth, given, whole, last'⟩ := @ih ordered (page.extended event)
        (begun.trans further.le) next same
      have forth : event.sequence ≤ last.cursor := forth
      have taken := LogEvent.between_iff.mpr ⟨⟨new', forth⟩, wanted⟩
      refine ⟨further.le.trans forth, ?_, fun open_ => List.forall_mem_cons.mpr
        ⟨forth, whole open_⟩, .inr (last'.elim (fun ends => here ends.symm) later)⟩
      rw [List.filter_cons_of_pos taken, List.map_cons, given, LogPage.extended,
        List.append_assoc, List.singleton_append]

/-- A log behind a call: with entries more, and with fewer in front. -/
structure Continues (record : LogRecord) (added : List LogEvent) (later : LogRecord) : Prop where
  next : later.nextSequence = record.nextSequence + added.length
  numbers : added.map LogEvent.sequence = List.range' record.nextSequence added.length
  events : ∃ count, later.events = (record.events ++ added).drop count

theorem Continues.refl (record : LogRecord) : Continues record [] record :=
  ⟨rfl, rfl, 0, by rw [List.append_nil, List.drop_zero]⟩

theorem Continues.outlived {record grown later : LogRecord} {added : List LogEvent}
    (continues : Continues record added grown) (outlives : Outlives grown later) :
    Continues record added later := by
  obtain ⟨count, grown'⟩ := continues.events
  obtain ⟨more, left⟩ := outlives.events
  exact ⟨outlives.next.trans continues.next, continues.numbers, count + more, by
    rw [left, grown', List.drop_drop]⟩

section Calls

variable {numbers : NumberFormat} {localeCompare : Precedence Text} {limits : LogLimits}
  {records : List LogRecord} {processId : Text}

/-- A log that is put in is found, and leaves those of other processes. -/
theorem logOf_putLog (once : (records.map LogRecord.processId).Nodup) (record : LogRecord) :
    logOf (putLog records record) processId =
      if record.processId = processId then record else logOf records processId := by
  split
  next same =>
    have listed : record ∈ putLog records record := by
      unfold putLog
      split_ifs with known
      · obtain ⟨kept, keptIn, own⟩ := List.any_eq_true.mp known
        exact mem_modifyAt.mpr ⟨kept, keptIn, if_pos (of_decide_eq_true own)⟩
      · exact List.mem_append_right _ (List.mem_singleton.mpr rfl)
    rw [← same]
    exact logOf_of_mem ((ids_putLog records record).2 once) listed
  next other =>
    have replaced : ∀ kept : LogRecord,
        decide ((if kept.processId = record.processId then record else kept).processId =
          processId) = decide (kept.processId = processId) := by
      intro kept
      split_ifs with own
      · rw [own]
      · rfl
    unfold logOf putLog
    split_ifs with known
    · have found : (modifyAt LogRecord.processId record.processId (fun _ => record) records).find?
          (fun kept => kept.processId = processId) =
            records.find? fun kept => kept.processId = processId := by
        rw [modifyAt, List.find?_map]
        simp only [Function.comp_def, replaced]
        cases listed : records.find? fun kept => kept.processId = processId with
        | none => rfl
        | some kept =>
          have holds := List.find?_some listed
          have own : kept.processId = processId := of_decide_eq_true holds
          rw [Option.map_some, if_neg fun same => other (same.symm.trans own)]
      rw [found]
    · have no : decide (record.processId = processId) = false := decide_eq_false other
      rw [List.find?_append, List.find?_singleton, no]
      cases records.find? fun kept => kept.processId = processId with
      | none => rfl
      | some kept => rfl

/-- Pruned records hold the logs that there were, which have lost first entries only. -/
theorem Prunes.logOf {later : List LogRecord} (prunes : Prunes records later)
    (once : (records.map LogRecord.processId).Nodup) :
    Outlives (logOf records processId) (Service.logOf later processId) := by
  have laterOnce : (later.map LogRecord.processId).Nodup := by
    rw [prunes.ids]
    exact once
  by_cases listed : processId ∈ later.map LogRecord.processId
  · obtain ⟨survivor, survivorIn, own⟩ := List.mem_map.mp listed
    obtain ⟨record, recordIn, outlives⟩ := prunes.outlives survivor survivorIn
    have before := logOf_of_mem once recordIn
    have behind := logOf_of_mem laterOnce survivorIn
    rw [← outlives.processId, own] at before
    rw [own] at behind
    rw [before, behind]
    exact outlives
  · have missing : ∀ {logs : List LogRecord}, processId ∉ logs.map LogRecord.processId →
        Service.logOf logs processId = createLogRecord processId := by
      intro logs unlisted
      have none' : logs.find? (fun record => record.processId = processId) = none :=
        List.find?_eq_none.mpr fun record recordIn own =>
          unlisted (List.mem_map.mpr ⟨record, recordIn, of_decide_eq_true own⟩)
      rw [Service.logOf, none']
      rfl
    rw [missing listed, missing (prunes.ids ▸ listed)]
    exact .refl _

/-- A draft continues every log: that of its process with the entries of the draft. -/
theorem ConsistentLogs.continues_draftLog (consistent : ConsistentLogs numbers limits records)
    {id : Text} {input : JsonValue} {now : ℕ} {draft : LogDraft}
    (ok : Service.draftLog numbers limits records id input now = .ok (some draft)) :
    Continues (Service.logOf records processId)
      (if draft.processId = processId then draft.appended else [])
      (Service.logOf draft.records processId) := by
  obtain ⟨other, identified, ok⟩ := found_of_bind ok
  rw [requireIdentifier_ok identified] at ok
  split_ifs at ok
  · cases ok
  · cases ok
  obtain ⟨time, -, ok⟩ := found_of_bind ok
  obtain ⟨⟨full, appended⟩, entered, ok⟩ := found_of_bind ok
  cases ok
  obtain ⟨sound, named⟩ := consistent.logOf id
  obtain ⟨whole, own, floor, events⟩ := appendEntries_ok sound entered
  rw [named] at own
  rw [logOf_putLog consistent.once, own]
  split_ifs with here
  · have next := whole.next
    have before := sound.next
    have sequences := whole.sequences
    have first : (Service.logOf records id).floorSequence + 1 +
        (Service.logOf records id).events.length = (Service.logOf records id).nextSequence := by
      omega
    rw [events, List.length_append, floor] at next
    rw [events, List.length_append, floor, List.map_append, ← List.range'_append_1, first]
      at sequences
    have numbers := (List.append_inj sequences (by rw [List.length_map, List.length_range'])).2
    have here : id = processId := here
    rw [← here]
    refine ⟨?_, numbers, 0, by rw [events, List.drop_zero]⟩
    change full.nextSequence = _ + appended.length
    omega
  · exact .refl _

namespace LogCall

/-- The call removes the log of a process. -/
def removes (processId : Text) : LogCall → Bool
  | remove id => id = processId
  | _ => false

/-- The entries of a process that a call has appended, of which it may have pruned some. -/
def appendedTo (numbers : NumberFormat) (localeCompare : Precedence Text) (limits : LogLimits)
    (processId : Text) (records : List LogRecord) (call : LogCall) : List LogEvent :=
  match call.outcome numbers localeCompare limits records, call.draft numbers limits records with
  | .ok _, .ok (some draft) => if draft.processId = processId then draft.appended else []
  | _, _ => []

theorem continues_append (consistent : ConsistentLogs numbers limits records) (id : Text)
    (input : JsonValue) (now : ℕ) :
    Continues (logOf records processId)
      ((append id input now).appendedTo numbers localeCompare limits processId records)
      (logOf ((append id input now).next numbers localeCompare limits records) processId) := by
  unfold appendedTo next outcome draft
  simp only
  cases drafted : draftLog numbers limits records id input now with
  | error failure =>
    have failed : appendLog numbers localeCompare limits records id input now = .error failure := by
      rw [appendLog, drafted]
      rfl
    simp only [failed]
    exact .refl _
  | ok entered =>
    cases entered with
    | none =>
      have unchanged : appendLog numbers localeCompare limits records id input now =
          .ok ⟨records, [], []⟩ := by
        rw [appendLog, drafted]
        rfl
      simp only [unchanged]
      exact .refl _
    | some draft =>
      have pruning : appendLog numbers localeCompare limits records id input now =
          pruneDraft numbers localeCompare limits draft := by
        rw [appendLog, drafted]
        rfl
      have continues : Continues (logOf records processId)
          (if draft.processId = processId then draft.appended else [])
          (logOf draft.records processId) := consistent.continues_draftLog drafted
      have whole := (consistent.draftLog drafted).1
      simp only [pruning]
      cases pruned : pruneDraft numbers localeCompare limits draft with
      | error failure => exact .refl _
      | ok answer =>
        obtain ⟨⟨left, changed⟩, made, ok⟩ := found_of_bind pruned
        cases ok
        exact continues.outlived ((pruneLogRecords_ok whole.once whole.sound made).2.logOf
          whole.once)

/-- A call other than the removal of a log continues it. -/
theorem continues_next (consistent : ConsistentLogs numbers limits records) {call : LogCall}
    (kept : call ≠ remove processId) :
    Continues (logOf records processId)
      (call.appendedTo numbers localeCompare limits processId records)
      (logOf (call.next numbers localeCompare limits records) processId) := by
  cases call with
  | append id input now => exact continues_append consistent id input now
  | appendMany id input now =>
    cases input with
    | array values => exact continues_append consistent id (.array values) now
    | _ => exact .refl _
  | prune now =>
    unfold appendedTo next outcome draft
    simp only
    cases pruned : pruneLogs numbers localeCompare limits records now with
    | error failure => exact .refl _
    | ok answer =>
      obtain ⟨time, -, ok⟩ := found_of_bind pruned
      obtain ⟨⟨left, changed⟩, made, ok⟩ := found_of_bind ok
      cases ok
      exact (Continues.refl _).outlived
        ((pruneLogRecords_ok consistent.once consistent.sound made).2.logOf consistent.once)
  | remove id =>
    unfold appendedTo next outcome draft
    simp only
    cases removed : removeLog records id with
    | error failure => exact .refl _
    | ok answer =>
      obtain ⟨other, identified, ok⟩ := found_of_bind removed
      cases ok
      rw [requireIdentifier_ok identified]
      have different : id ≠ processId := fun same => kept (congrArg remove same)
      have found : (without LogRecord.processId id records).find?
          (fun record => record.processId = processId) =
            records.find? fun record => record.processId = processId := by
        refine find?_filter_of_kept _ _ (fun record own => ?_) records
        have own : record.processId = processId := of_decide_eq_true own
        rw [own]
        exact decide_eq_true different.symm
      unfold logOf
      rw [found]
      exact .refl _

end LogCall

end Calls

/-- The store and a client of it: the entries that were appended to the process, the client's
cursor and what it has received, whether a page has failed, and how many entries there were when a
page last reached the end of the log. -/
structure LogReader where
  records : List LogRecord
  history : List LogEvent
  cursor : ℕ
  received : List JsonValue
  expired : Bool
  known : ℕ

/-- A call of the store, or the next page of the client. -/
inductive ReaderEvent where
  | call (call : LogCall)
  | page (limit : ℕ)

namespace LogReader

section Runs

variable (numbers : NumberFormat) (localeCompare : Precedence Text) (limits : LogLimits)
  (processId : Text) (start : ℕ) (generation : Option ℕ)

/-- A page that is not full, or behind which no entry is held, has reached the end. -/
def endsWith (limit : ℕ) (reader : LogReader) (page : LogPage) : Prop :=
  page.events.length < limit ∨
    ∀ event ∈ (logOf reader.records processId).events, event.sequence ≤ page.cursor
deriving Decidable

/-- The client asks for a page. -/
def page (limit : ℕ) (reader : LogReader) : LogReader :=
  match pageLog reader.records processId reader.cursor limit generation with
  | .error _ => { reader with expired := true }
  | .ok page =>
    { reader with
      cursor := page.cursor
      received := reader.received ++ page.events
      known := if reader.endsWith processId limit page then reader.history.length
        else reader.known }

/-- The store and the client after an event. The log is not removed; the client asks for no page
after one that failed. -/
def step (reader : LogReader) : ReaderEvent → Option LogReader
  | .call call =>
    if call.removes processId then none
    else some { reader with
      records := call.next numbers localeCompare limits reader.records
      history := reader.history ++
        call.appendedTo numbers localeCompare limits processId reader.records }
  | .page limit =>
    if limit = 0 ∨ reader.expired = true then none
    else some (reader.page processId generation limit)

/-- A client that starts at a cursor. -/
def machine : Machine LogReader ReaderEvent where
  start := ⟨[], [], start, [], false, 0⟩
  step := step numbers localeCompare limits processId generation

/-- What a client has received: the entries of its generation from its first cursor up to its
present one, once each and in order, and these are all that there were when a page last reached
the end. -/
structure Paged (reader : LogReader) : Prop where
  numbers : reader.history.map LogEvent.sequence = List.range' 1 reader.history.length
  received : reader.received =
    (reader.history.filter (LogEvent.between start reader.cursor generation)).map publicLogEvent
  reached : ∀ event ∈ reader.history.take reader.known, event.sequence ≤ reader.cursor

/-- What is known of the log that the client reads. -/
structure Follows (reader : LogReader) : Prop where
  consistent : ConsistentLogs numbers limits reader.records
  next : (logOf reader.records processId).nextSequence = reader.history.length + 1
  held : (logOf reader.records processId).events =
    reader.history.drop (logOf reader.records processId).floorSequence
  begun : start ≤ reader.cursor
  inside : reader.cursor = start ∨ reader.cursor ≤ reader.history.length
  known : reader.known ≤ reader.history.length
  paged : reader.Paged start generation

end Runs

variable {numbers : NumberFormat} {localeCompare : Precedence Text} {limits : LogLimits}
  {processId : Text} {start : ℕ} {generation : Option ℕ} {reader next : LogReader}

theorem ordered_of_numbers {first : ℕ}
    (numbered : events.map LogEvent.sequence = List.range' first events.length) :
    Ordered events := by
  have sorted : (List.range' first events.length).Pairwise (· < ·) := List.pairwise_lt_range'
  rw [← numbered, List.pairwise_map] at sorted
  exact sorted

/-- Of numbered entries, dropping some leaves those with higher numbers. -/
theorem drop_of_numbers {first : ℕ}
    (numbered : events.map LogEvent.sequence = List.range' first events.length) (count : ℕ) :
    events.drop count = events.filter fun event => decide (first + count ≤ event.sequence) := by
  induction events generalizing first count with
  | nil => rw [List.drop_nil, List.filter_nil]
  | cons event rest ih =>
    have listed := numbered
    rw [List.map_cons, List.length_cons, List.range'_succ, List.cons.injEq] at listed
    cases count with
    | zero =>
      refine (List.filter_eq_self.mpr fun other otherIn => decide_eq_true ?_).symm
      have otherIn : other ∈ event :: rest := otherIn
      have number := List.mem_map_of_mem (f := LogEvent.sequence) otherIn
      rw [numbered, List.mem_range'_1] at number
      exact number.1
    | succ count =>
      have small : ¬ first + (count + 1) ≤ event.sequence := by omega
      have same : first + 1 + count = first + (count + 1) := by omega
      rw [List.drop_succ_cons, ih listed.2, List.filter_cons_of_neg (by simpa using small), same]

/-- A process without a log has an empty one. -/
theorem pageLog_eq (records : List LogRecord) (after limit : ℕ) :
    pageLog records processId after limit generation =
      pageLogRecord (logOf records processId) after limit generation := by
  unfold pageLog logOf
  cases records.find? fun record => record.processId = processId with
  | none => rfl
  | some record => rfl

section

variable (follows : reader.Follows numbers limits processId start generation)

include follows

/-- The entries that are held are those behind the floor. -/
theorem Follows.held_eq :
    (logOf reader.records processId).events = reader.history.filter fun event =>
      decide (1 + (logOf reader.records processId).floorSequence ≤ event.sequence) := by
  rw [← drop_of_numbers follows.paged.numbers]
  exact follows.held

/-- A page fails exactly when an entry behind the cursor is no longer held. -/
theorem Follows.fails (limit : ℕ) :
    (∃ error, pageLog reader.records processId reader.cursor limit generation = .error error) ↔
      ∃ event ∈ reader.history, reader.cursor < event.sequence ∧
        event ∉ (logOf reader.records processId).events := by
  have sound := (follows.consistent.logOf processId).1
  have next := follows.next
  have whole := sound.next
  rw [pageLog_eq, pageLogRecord]
  constructor
  · rintro ⟨error, failed⟩
    split_ifs at failed with expired
    have number : (logOf reader.records processId).floorSequence ∈
        reader.history.map LogEvent.sequence := by
      rw [follows.paged.numbers, List.mem_range'_1]
      omega
    obtain ⟨event, listed, same⟩ := List.mem_map.mp number
    refine ⟨event, listed, same ▸ expired, fun held => ?_⟩
    rw [follows.held_eq, List.mem_filter, decide_eq_true_eq] at held
    omega
  · rintro ⟨event, listed, behind, pruned⟩
    rw [follows.held_eq, List.mem_filter, decide_eq_true_eq, not_and] at pruned
    have low := pruned listed
    rw [if_pos (by omega)]
    exact ⟨_, rfl⟩

/-- A call continues the log, and the client has received none of its entries. -/
theorem Follows.call {call : LogCall} (kept : call ≠ .remove processId) :
    Follows numbers limits processId start generation { reader with
      records := call.next numbers localeCompare limits reader.records
      history := reader.history ++
        call.appendedTo numbers localeCompare limits processId reader.records } := by
  have continues : Continues (logOf reader.records processId)
      (call.appendedTo numbers localeCompare limits processId reader.records)
      (logOf (call.next numbers localeCompare limits reader.records) processId) :=
    LogCall.continues_next follows.consistent kept
  have consistent : ConsistentLogs numbers limits
      (call.next numbers localeCompare limits reader.records) :=
    LogCall.next_consistent follows.consistent call
  generalize call.appendedTo numbers localeCompare limits processId reader.records = added
    at continues ⊢
  generalize call.next numbers localeCompare limits reader.records = records
    at continues consistent ⊢
  have sound := (consistent.logOf processId).1
  have before := (follows.consistent.logOf processId).1
  have next := continues.next
  have numbered := continues.numbers
  rw [follows.next] at next numbered
  have numbers : (reader.history ++ added).map LogEvent.sequence =
      List.range' 1 (reader.history ++ added).length := by
    rw [List.map_append, follows.paged.numbers, numbered, List.length_append, Nat.add_comm _ 1,
      List.range'_append_1]
  have none' : added.filter (LogEvent.between start reader.cursor generation) = [] := by
    refine List.filter_eq_nil_iff.mpr fun event listed between => ?_
    have number := List.mem_map_of_mem (f := LogEvent.sequence) listed
    rw [numbered, List.mem_range'_1] at number
    have range := (LogEvent.between_iff.mp between).1
    have inside := follows.inside
    omega
  have later := sound.next
  have early := before.next
  rw [follows.next] at early
  refine ⟨consistent, ?_, ?_, follows.begun, ?_, ?_, numbers, ?_, ?_⟩
  · rw [next, List.length_append]
    omega
  · obtain ⟨count, events⟩ := continues.events
    have floor : (logOf reader.records processId).floorSequence ≤ reader.history.length := by omega
    rw [follows.held, ← List.drop_append_of_le_length floor, List.drop_drop] at events
    have length := congrArg List.length events
    rw [List.length_drop, List.length_append] at length
    change (logOf records processId).events =
      (reader.history ++ added).drop (logOf records processId).floorSequence
    rw [events]
    by_cases whole : (logOf reader.records processId).floorSequence + count ≤
        reader.history.length + added.length
    · have same : (logOf reader.records processId).floorSequence + count =
          (logOf records processId).floorSequence := by omega
      rw [same]
    · rw [List.drop_of_length_le (by rw [List.length_append]; omega),
        List.drop_of_length_le (by rw [List.length_append]; omega)]
  · rw [List.length_append]
    exact follows.inside.imp_right fun inside => inside.trans (Nat.le_add_right _ _)
  · rw [List.length_append]
    exact follows.known.trans (Nat.le_add_right _ _)
  · rw [List.filter_append, none', List.append_nil]
    exact follows.paged.received
  · rw [List.take_append_of_le_length follows.known]
    exact follows.paged.reached

/-- A page gives the client what it has not received up to the page's cursor. -/
theorem Follows.page (limit : ℕ) :
    (reader.page processId generation limit).Follows numbers limits processId start generation := by
  unfold LogReader.page
  rw [pageLog_eq, pageLogRecord]
  by_cases expired : reader.cursor < (logOf reader.records processId).floorSequence
  · rw [if_pos expired]
    exact { follows with paged := { follows.paged with } }
  · rw [if_neg expired]
    have sound := (follows.consistent.logOf processId).1
    obtain ⟨page, paged⟩ : ∃ page, pageEntries reader.cursor limit generation
        (logOf reader.records processId).events ⟨reader.cursor, []⟩ = page := ⟨_, rfl⟩
    obtain ⟨forth, given, whole, last⟩ := @pageEntries_spec _ _ _ _
      (ordered_of_numbers sound.sequences) ⟨reader.cursor, []⟩ page le_rfl
      (fun _ _ behind => behind) paged
    rw [paged]
    have inHistory : ∀ event ∈ (logOf reader.records processId).events,
        event ∈ reader.history := by
      rw [follows.held]
      exact fun event => List.mem_of_mem_drop
    have within : ∀ event ∈ reader.history, event.sequence ≤ reader.history.length := by
      intro event listed
      have number := List.mem_map_of_mem (f := LogEvent.sequence) listed
      rw [follows.paged.numbers, List.mem_range'_1] at number
      omega
    have between : (logOf reader.records processId).events.filter
        (LogEvent.between reader.cursor page.cursor generation) =
          reader.history.filter (LogEvent.between reader.cursor page.cursor generation) := by
      rw [follows.held_eq, List.filter_filter]
      refine List.filter_congr fun event _ => Bool.and_eq_left_iff_imp.mpr fun inside => ?_
      have behind := (LogEvent.between_iff.mp inside).1.1
      exact decide_eq_true (by omega)
    refine ⟨follows.consistent, follows.next, follows.held, follows.begun.trans forth, ?_, ?_,
      follows.paged.numbers, ?_, ?_⟩
    · rcases last with same | ⟨event, listed, same⟩
      · change page.cursor = start ∨ page.cursor ≤ reader.history.length
        rw [same]
        exact follows.inside
      · right
        change page.cursor ≤ reader.history.length
        rw [← same]
        exact within event (inHistory event listed)
    · change (if reader.endsWith processId limit page then reader.history.length
        else reader.known) ≤ reader.history.length
      split_ifs
      · exact le_rfl
      · exact follows.known
    · change reader.received ++ page.events =
        (reader.history.filter (LogEvent.between start page.cursor generation)).map publicLogEvent
      rw [List.nil_append, between] at given
      rw [filter_between (ordered_of_numbers follows.paged.numbers) follows.begun forth,
        List.map_append, ← follows.paged.received, ← given]
    · intro event listed
      change event ∈ reader.history.take (if reader.endsWith processId limit page then
        reader.history.length else reader.known) at listed
      split_ifs at listed with ends
      · have inHistory := List.mem_of_mem_take listed
        by_cases held : event ∈ (logOf reader.records processId).events
        · exact ends.elim (fun open_ => whole open_.ne event held) fun all => all event held
        · rw [follows.held_eq, List.mem_filter, decide_eq_true_eq, not_and] at held
          have low := held inHistory
          change event.sequence ≤ page.cursor
          have forth : reader.cursor ≤ page.cursor := forth
          omega
      · exact (follows.paged.reached event listed).trans forth

end

/-- Whatever is appended and pruned between its pages, a client has received the entries of its
generation up to its cursor, once each and in order, and a page of it fails exactly when an entry
behind the cursor was pruned. -/
theorem pages_complete {events : List ReaderEvent}
    (reached : (machine numbers localeCompare limits processId start generation).Reaches events
      reader) :
    reader.Paged start generation ∧ ∀ limit,
      (∃ error, pageLog reader.records processId reader.cursor limit generation = .error error) ↔
        ∃ event ∈ reader.history, reader.cursor < event.sequence ∧
          event ∉ (logOf reader.records processId).events := by
  have follows : reader.Follows numbers limits processId start generation := by
    refine reached.invariant ?_ ?_
    · refine ⟨.nil, rfl, rfl, le_rfl, .inl rfl, le_rfl, rfl, rfl, ?_⟩
      intro event listed
      cases listed
    · intro before event behind kept stepped
      cases event with
      | call call =>
        obtain ⟨stays, same⟩ := Option.ite_none_left_eq_some.mp stepped
        rw [← Option.some.inj same]
        refine kept.call fun removed => stays ?_
        rw [removed]
        exact decide_eq_true rfl
      | page limit =>
        obtain ⟨-, same⟩ := Option.ite_none_left_eq_some.mp stepped
        rw [← Option.some.inj same]
        exact kept.page limit
  exact ⟨follows.paged, follows.fails⟩

/-- Three entries of two generations, the client's pages between them. -/
def pagedEvents : List ReaderEvent :=
  [.call (.append (js "p") (LogCall.logInput "a") 100), .page 1,
    .call (.append (js "p") (LogCall.logInput "b") 101), .page 5]

/-- The client has received both, and its next page does not fail. -/
theorem pages_complete_pagedEvents : ∃ reader : LogReader,
    (machine Kernel.decimalFormat (.ofLinear Text) LogCall.twoEntryLimits (js "p") 0
    (some 1)).Reaches
      pagedEvents reader ∧ (reader.cursor, reader.received.length, reader.expired) = (2, 2, false) ∧
      reader.Paged 0 (some 1) := by
  have ran : ((machine Kernel.decimalFormat (.ofLinear Text) LogCall.twoEntryLimits (js "p") 0
      (some 1)).run pagedEvents).map (fun reader =>
        (reader.cursor, reader.received.length, reader.expired)) = some (2, 2, false) := by
    decide +kernel
  obtain ⟨reader, reached, seen⟩ := Machine.exists_of_run ran
  exact ⟨reader, reached, seen, (pages_complete reached).1⟩

end LogReader

end Holonomy.Service
