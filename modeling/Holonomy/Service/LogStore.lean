import Holonomy.Foundation.Tallies
import Holonomy.Service.StateFiles
import Holonomy.Foundation.Machine
import Holonomy.Kernel.Validation

/-!
# The log store

The store serves one call after another. An append takes its entries one by one, prunes all records
and only then replaces them; a call that fails leaves the records as they were.
-/

namespace Holonomy.Service

open Foundation Network

/-! ## Process logs

The service keeps a record of the output of each process.
-/

structure LogLimits where
  maxEntriesPerProcess : ℕ
  maxProcessBytes : ℕ
  maxTotalBytes : ℕ
  maxTotalEntries : ℕ
  ttlMs : ℕ
  entriesPerProcess : 1 ≤ maxEntriesPerProcess ∧ maxEntriesPerProcess ≤ 16384
  processBytes : 1 ≤ maxProcessBytes ∧ maxProcessBytes ≤ 8 * 1024 * 1024
  totalBytes : 1 ≤ maxTotalBytes ∧ maxTotalBytes ≤ 64 * 1024 * 1024
  totalEntries : 1 ≤ maxTotalEntries ∧ maxTotalEntries ≤ 65536
  ttl : 1 ≤ ttlMs ∧ ttlMs ≤ maxSafeInteger

/-- An entry of a log. -/
structure LogEvent where
  time : ℕ
  chunk : Text
  generation : ℕ
  sequence : ℕ
  sourceSequence : Option ℕ
  stream : Text
deriving DecidableEq

def LogEvent.json (event : LogEvent) : JsonValue :=
  .object ([(js "at", .number event.time), (js "chunk", .string event.chunk),
    (js "generation", .number event.generation), (js "sequence", .number event.sequence)] ++
    (event.sourceSequence.toList.map fun source => (js "sourceSequence", .number source)) ++
    [(js "stream", .string event.stream)])

/-- The log of a process. -/
structure LogRecord where
  events : List LogEvent
  floorSequence : ℕ
  nextSequence : ℕ
  processId : Text
  totalBytes : ℕ
deriving DecidableEq

/-- A log without entries. -/
def createLogRecord (processId : Text) : LogRecord := ⟨[], 0, 1, processId, 0⟩

def logCorrupt {α : Type} : Except Failure α :=
  serviceError .stateCorrupt "Holonomy Service process log state is unreadable"

/-- The number that an entry had at its source, if any. -/
def logSource (value : JsonValue) : Except Failure (Option ℕ) :=
  match (fieldOf value (js "sourceSequence")).orElse fun _ => fieldOf value (js "sequence") with
  | none => .ok none
  | some source =>
    (requireInteger (some source) "Process log source sequence" 0 maxSafeInteger).map some

def normalizeLogInput (input : JsonValue) (sequence time : ℕ) : Except Failure LogEvent := do
  let value ← requireRecord (some input) "Process log entry"
  match memberOf value (js "chunk") with
  | some (.string chunk) =>
    let generation ← requireInteger (memberOf value (js "generation")) "Process log generation" 1
      maxSafeInteger
    let sourceSequence ← logSource value
    let stream ← requireString (memberOf value (js "stream")) "Process log stream" 64
    .ok ⟨time, chunk, generation, sequence, sourceSequence, stream⟩
  | _ => serviceError .invalidRequest "Process log chunk is invalid"

section Pruning

variable (numbers : NumberFormat) (localeCompare : Precedence Text) (limits : LogLimits)

/-- The size of an entry. -/
def logEventBytes (event : LogEvent) : ℕ := byteLength (canonicalJson numbers event.json)

def LogRecord.firstBytes (record : LogRecord) : ℕ :=
  match record.events with
  | [] => 0
  | first :: _ => logEventBytes numbers first

/-- Take the first entry out of a record. -/
def LogRecord.shift (record : LogRecord) : LogRecord :=
  match record.events with
  | [] => record
  | removed :: rest =>
    { record with
      events := rest
      floorSequence := max record.floorSequence removed.sequence
      totalBytes := record.totalBytes - record.firstBytes numbers }

def shiftWhile (tooMuch : LogRecord → Bool) : ℕ → LogRecord → LogRecord
  | 0, record => record
  | turns + 1, record =>
    if tooMuch record then shiftWhile tooMuch turns (record.shift numbers) else record

def LogLimits.expires (now : ℕ) (record : LogRecord) : Bool :=
  match record.events with
  | [] => false
  | first :: _ => first.time + limits.ttlMs < now

def LogLimits.overfills (record : LogRecord) : Bool :=
  record.events.length > limits.maxEntriesPerProcess || record.totalBytes > limits.maxProcessBytes

def LogRecord.trim (now : ℕ) (record : LogRecord) : LogRecord :=
  let fresh := shiftWhile numbers (limits.expires now) record.events.length record
  shiftWhile numbers limits.overfills fresh.events.length fresh

def logCandidates (records : List LogRecord) : List (Text × LogEvent) :=
  records.flatMap fun record => record.events.map fun event => (record.processId, event)

/-- The order in which the entries are visited. -/
def candidateOrder : Precedence (Text × LogEvent) :=
  ((Precedence.ofLinear ℕ).comap fun candidate => candidate.2.time).andThen
    (((Precedence.ofLinear ℕ).comap fun candidate => candidate.2.sequence).andThen
      (localeCompare.comap Prod.fst))

/-- The records while entries are taken out, the processes that have lost some, and the counts. -/
structure Eviction where
  records : List LogRecord
  changed : List Text
  bytes : ℕ
  entries : ℕ

/-- All records together are over a limit. -/
def LogLimits.isExceeded (state : Eviction) : Bool :=
  state.entries > limits.maxTotalEntries || state.bytes > limits.maxTotalBytes

def LogRecord.startsWith (record : LogRecord) (event : LogEvent) : Bool :=
  match record.events with
  | [] => false
  | first :: _ => first.sequence = event.sequence

def Eviction.visit (state : Eviction) (candidate : Text × LogEvent) : Eviction :=
  match state.records.find? fun record => record.processId = candidate.1 with
  | none => state
  | some record =>
    if record.startsWith candidate.2 then
      { records := modifyAt LogRecord.processId candidate.1 (LogRecord.shift numbers) state.records
        changed := candidate.1 :: state.changed
        bytes := state.bytes - record.firstBytes numbers
        entries := state.entries - 1 }
    else state

/-- Visit entries while all records together are over a limit. -/
def Eviction.walk : List (Text × LogEvent) → Eviction → Except Failure Eviction
  | [], state => if limits.isExceeded state then logCorrupt else .ok state
  | candidate :: candidates, state =>
    if limits.isExceeded state then Eviction.walk candidates (state.visit numbers candidate)
    else .ok state

def trimmedEviction (records : List LogRecord) (now : ℕ) : Eviction :=
  let trimmed := records.map (LogRecord.trim numbers limits now)
  { records := trimmed
    changed := (records.filter fun record =>
      (record.trim numbers limits now).events.length < record.events.length).map LogRecord.processId
    bytes := tally LogRecord.totalBytes trimmed
    entries := tally (fun record => record.events.length) trimmed }

def pruneLogRecords (records : List LogRecord) (now : ℕ) :
    Except Failure (List LogRecord × List Text) := do
  let trimmed := trimmedEviction numbers limits records now
  let ordered := (candidateOrder localeCompare).sort (logCandidates trimmed.records)
  let pruned ← Eviction.walk numbers limits ordered trimmed
  .ok (pruned.records, pruned.changed)

end Pruning

section Calls

variable (numbers : NumberFormat) (localeCompare : Precedence Text) (limits : LogLimits)

/-- What the caller is given of an entry. -/
def publicLogEvent (event : LogEvent) : JsonValue :=
  cloneJson (.object ([(js "chunk", .string event.chunk),
    (js "generation", .number event.generation), (js "sequence", .number event.sequence)] ++
    (event.sourceSequence.toList.map fun source => (js "sourceSequence", .number source)) ++
    [(js "stream", .string event.stream)]))

def requireIdentifier (value : Text) (label : String) : Except Failure Text :=
  if 1 ≤ value.length ∧ value.length ≤ 160 ∧
      value.all fun unit => Kernel.isWord unit || unit ∈ js ":.-" then .ok value
  else serviceError .invalidRequest (label ++ " is invalid")

def logTimestamp (now : ℕ) : Except Failure ℕ :=
  if now ≤ maxSafeInteger then .ok now
  else serviceError .invalidRequest "Process log clock is invalid"

def logOf (records : List LogRecord) (processId : Text) : LogRecord :=
  (records.find? fun record => record.processId = processId).getD (createLogRecord processId)

def putLog (records : List LogRecord) (record : LogRecord) : List LogRecord :=
  if records.any fun other => other.processId = record.processId then
    modifyAt LogRecord.processId record.processId (fun _ => record) records
  else records ++ [record]

/-- A record with an entry more. -/
def LogRecord.extended (record : LogRecord) (event : LogEvent) : LogRecord :=
  { record with
    events := record.events ++ [event]
    nextSequence := record.nextSequence + 1
    totalBytes := record.totalBytes + logEventBytes numbers event }

def appendEntries (now : ℕ) : List JsonValue → LogRecord →
    Except Failure (LogRecord × List LogEvent)
  | [], record => .ok (record, [])
  | value :: values, record =>
    if record.nextSequence ≥ maxSafeInteger then
      serviceError .limitExceeded "Process log cursor is exhausted"
    else do
      let event ← normalizeLogInput value record.nextSequence now
      let bytes := logEventBytes numbers event
      if bytes > limits.maxProcessBytes ∨ bytes > limits.maxTotalBytes then
        serviceError .limitExceeded "Process log entry exceeds its limit"
      else
        let (full, appended) ← appendEntries now values (record.extended numbers event)
        .ok (full, event :: appended)

structure LogAnswer where
  records : List LogRecord
  changed : List Text
  appended : List JsonValue

/-- The records with entries that are not pruned yet. -/
structure LogDraft where
  records : List LogRecord
  processId : Text
  time : ℕ
  appended : List LogEvent

/-- The entries of a batch, or the one entry. -/
def logInputs : JsonValue → List JsonValue
  | .array values => values
  | value => [value]

def draftLog (records : List LogRecord) (processId : Text) (input : JsonValue) (now : ℕ) :
    Except Failure (Option LogDraft) := do
  let id ← requireIdentifier processId "Runtime process id"
  if (logInputs input).isEmpty then .ok none
  else if (logInputs input).length > limits.maxTotalEntries then
    serviceError .limitExceeded "Process log append exceeds its limit"
  else
    let time ← logTimestamp now
    let (record, appended) ← appendEntries numbers limits time (logInputs input) (logOf records id)
    .ok (some ⟨putLog records record, id, time, appended⟩)

def pruneDraft (draft : LogDraft) : Except Failure LogAnswer := do
  let (pruned, changed) ← pruneLogRecords numbers localeCompare limits draft.records draft.time
  .ok ⟨pruned, draft.processId :: changed, draft.appended.map publicLogEvent⟩

def appendLog (records : List LogRecord) (processId : Text) (input : JsonValue) (now : ℕ) :
    Except Failure LogAnswer := do
  match ← draftLog numbers limits records processId input now with
  | none => .ok ⟨records, [], []⟩
  | some draft => pruneDraft numbers localeCompare limits draft

def appendManyLogs (records : List LogRecord) (processId : Text) (input : JsonValue) (now : ℕ) :
    Except Failure LogAnswer :=
  match input with
  | .array _ => appendLog numbers localeCompare limits records processId input now
  | _ => serviceError .invalidRequest "Process log entries must be an array"

def pruneLogs (records : List LogRecord) (now : ℕ) : Except Failure LogAnswer := do
  let time ← logTimestamp now
  let (pruned, changed) ← pruneLogRecords numbers localeCompare limits records time
  .ok ⟨pruned, changed, []⟩

def removeLog (records : List LogRecord) (processId : Text) : Except Failure LogAnswer := do
  let id ← requireIdentifier processId "Runtime process id"
  .ok ⟨without LogRecord.processId id records, [], []⟩

end Calls

/-- A call of the store, with the reading of the clock. -/
inductive LogCall where
  | append (processId : Text) (input : JsonValue) (now : ℕ)
  | appendMany (processId : Text) (input : JsonValue) (now : ℕ)
  | prune (now : ℕ)
  | remove (processId : Text)

namespace LogCall

variable (numbers : NumberFormat) (localeCompare : Precedence Text) (limits : LogLimits)

def outcome (records : List LogRecord) : LogCall → Except Failure LogAnswer
  | append processId input now => appendLog numbers localeCompare limits records processId input now
  | appendMany processId input now =>
    appendManyLogs numbers localeCompare limits records processId input now
  | prune now => pruneLogs numbers localeCompare limits records now
  | remove processId => removeLog records processId

def next (records : List LogRecord) (call : LogCall) : List LogRecord :=
  match call.outcome numbers localeCompare limits records with
  | .ok answer => answer.records
  | .error _ => records

/-- The store, one call after another; its storage does not fail. -/
def machine : Machine (List LogRecord) LogCall where
  start := []
  step records call := some (call.next numbers localeCompare limits records)

end LogCall

end Holonomy.Service
