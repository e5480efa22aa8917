import Holonomy.Service.StateStore

/-!
# Durable mutations

The coordinator runs the work of a mutation behind a record of it: the record is pending before the
work begins and says how it ended after it, and each of its states is written to the file before the
coordinator goes on. The calls take turns.
-/

namespace Holonomy.Service

open Foundation Network

section Records

/-- How long a record is kept. -/
def retentionMs : ℕ := 24 * 60 * 60 * 1000

def maxRecords : ℕ := 1024

/-- The most bytes of the file. -/
def maxMutationBytes : ℕ := 1024 * 1024

structure ThrownError where
  code : Text
  message : Text
  retryable : Bool
  status : ℚ
  deriving DecidableEq

/-- What a caller's work is rejected with. -/
inductive Rejection where
  | service (error : ThrownError)
  | other

def internalError : ThrownError :=
  ⟨js "service.internal", js "The Holonomy service operation failed", false, 500⟩

/-- The error for a file that grows too large. -/
def persistedLimitError : ThrownError :=
  ⟨js "service.limit_exceeded", js "Holonomy Service persisted state exceeds its limit", false, 413⟩

def finiteJsonError : ThrownError :=
  ⟨js "service.invalid_request", js "Value must be finite JSON", false, 400⟩

def normalizeServiceError : Rejection → ThrownError
  | .service error => error
  | .other => internalError

def fingerprintJson (numbers : NumberFormat) (value : JsonValue) : Text :=
  Kernel.sha256Hex (encodeUtf8 (canonicalJson numbers value))

def recordKeyOf (numbers : NumberFormat) (scope key : Text) : Text :=
  fingerprintJson numbers (.array [.string scope, .string key])

def textAt (value : JsonValue) (key : Text) : Option Text :=
  match memberOf value key with
  | some (.string text) => some text
  | _ => none

/-- The record of a mutation that begins. -/
def pendingRecord (expiresAt : ℕ) (fingerprint scope : Text) : JsonValue :=
  .object [(js "expiresAt", .number expiresAt), (js "fingerprint", .string fingerprint),
    (js "scope", .string scope), (js "state", .string (js "pending"))]

/-- The record of a mutation whose work was resolved. -/
def succeeded (record response : JsonValue) : JsonValue :=
  withMember (withMember record (js "response") (cloneJson response))
    (js "state") (.string (js "succeeded"))

def ThrownError.toJson (error : ThrownError) : JsonValue :=
  .object [(js "code", .string error.code), (js "message", .string error.message),
    (js "retryable", .boolean error.retryable), (js "status", .number error.status)]

def failed (record : JsonValue) (error : ThrownError) : JsonValue :=
  withMember (withMember record (js "error") error.toJson) (js "state") (.string (js "failed"))

/-- The status of an error that does not tell its own. -/
def statusByCode (code : Text) : ℚ :=
  if code = js "process.isolation_unsupported" ∨ code = js "sandbox.capability_unsupported" ∨
      code = js "service.unsupported" then 501
  else if code = js "service.conflict" ∨ code = js "service.precondition_failed" then 409
  else if code = js "service.cursor_expired" then 410
  else if code = js "service.invalid_request" then 400
  else if code = js "service.limit_exceeded" then 413
  else if code = js "service.not_found" then 404
  else if code = js "service.unauthorized" then 401
  else if code = js "service.unavailable" then 503
  else 500

def recordedError (record : JsonValue) : ThrownError :=
  let error := (memberOf record (js "error")).getD .null
  let code := (textAt error (js "code")).getD []
  { code := code
    message := (textAt error (js "message")).getD []
    retryable := match memberOf error (js "retryable") with
      | some (.boolean retryable) => retryable
      | _ => false
    status := (numberAt error (js "status")).getD (statusByCode code) }

def unexpired (now : ℕ) (record : JsonValue) : Bool :=
  match numberAt record (js "expiresAt") with
  | some expiresAt => (now : ℚ) < expiresAt
  | none => false

def retained (now : ℕ) (record : JsonValue) : Bool :=
  match (memberOf record (js "expiresAt")).bind safeInteger? with
  | some expiresAt => (now : ℤ) < expiresAt
  | none => false

/-- Drop the records that have expired. -/
def prune (now : ℕ) : JsonValue → JsonValue
  | .object members => .object (members.filter fun member => retained now member.2)
  | other => other

/-- The number of records. -/
def sizeOf : JsonValue → ℕ
  | .object members => members.length
  | _ => 0

def historyJson (records : JsonValue) : JsonValue :=
  .object [(js "records", records), (js "version", .number 1)]

def loadRecords (now : ℕ) : Option JsonValue → Except Failure JsonValue
  | none | some .null => .ok (.object [])
  | some persisted =>
    match memberOf persisted (js "records") with
    | some (.object members) =>
      if numberAt persisted (js "version") = some 1 then .ok (prune now (.object members))
      else serviceError .stateCorrupt "Mutation history is invalid"
    | _ => serviceError .stateCorrupt "Mutation history is invalid"

end Records

abbrev Input (numbers : NumberFormat) : Type := { value : JsonValue // value.Proper numbers }

/-- A call of `execute`. -/
structure MutationCall (numbers : NumberFormat) where
  scope : Option JsonValue
  key : Option JsonValue
  input : Option (Input numbers)

/-- What a call is answered. -/
inductive Answer where
  | conflict
  | mismatch
  | response (value : JsonValue)
  | failure (error : ThrownError)
  | unwritten (error : ThrownError)
  | unread
  | refused (failure : Failure)

/-- What became of a run of some work. -/
inductive WorkOutcome where
  | resolved (response : Option JsonValue)
  | rejected (error : ThrownError)

structure Run (numbers : NumberFormat) where
  scope : Text
  key : Text
  input : Input numbers
  fingerprint : Text
  recordKey : Text
  checked : ℕ
  expiresAt : ℕ
  /-- What became of it, as far as the process that ran it has seen. -/
  outcome : Option WorkOutcome

def Run.call {numbers : NumberFormat} (run : Run numbers) : MutationCall numbers :=
  ⟨some (.string run.scope), some (.string run.key), some run.input⟩

/-- An answered call. -/
structure Answered (numbers : NumberFormat) where
  call : MutationCall numbers
  time : ℕ
  before : ℕ
  own : Option ℕ
  answer : Answer

/-- Where the call whose turn it is stands. -/
inductive MutationStage (numbers : NumberFormat) where
  | idle
  | loading (call : MutationCall numbers)
  /-- The pending record of a run that is to begin is being written. -/
  | opening (run : Run numbers)
  | working (run : ℕ)
  /-- The record of a resolved work is being written. -/
  | succeeding (run : ℕ) (response : JsonValue)
  | failing (run : ℕ) (error : ThrownError)

/-- The coordinator with its file. -/
structure Coordinator (numbers : NumberFormat) where
  records : JsonValue
  loaded : Bool
  waiting : List (MutationCall numbers)
  stage : MutationStage numbers
  file : Option JsonValue
  clock : ℕ
  runs : List (Run numbers)
  answers : List (Answered numbers)

/-- The readings of the clock in the turn of a call. -/
structure Readings where
  load : ℕ
  check : ℕ
  prune : ℕ
  start : ℕ

/-- Clocks do not go back. -/
def Readings.follow (readings : Readings) (clock : ℕ) : Bool :=
  clock ≤ readings.load && readings.load ≤ readings.check && readings.check ≤ readings.prune &&
    readings.prune ≤ readings.start && readings.start ≤ maxTime

/-- How the writing of the file ends. -/
inductive WriteOutcome where
  | done
  /-- The file system fails, after the file was replaced or before. -/
  | failed (landed : Bool)

/-- What a caller's work ends with. -/
inductive WorkResult where
  | resolves (response : Option JsonValue)
  | rejects (rejection : Rejection)

/-- What happens to the coordinator. -/
inductive MutationEvent (numbers : NumberFormat) where
  | execute (call : MutationCall numbers)
  | turn (readings : Readings)
  | reads (readable : Bool) (readings : Readings)
  | written (outcome : WriteOutcome)
  | works (result : WorkResult)
  /-- The process ends and another one starts; a writing may have replaced the file. -/
  | restart (landed : Bool)

namespace Coordinator

variable {numbers : NumberFormat} (durable : Bool) (coordinator : Coordinator numbers)

def new : Coordinator numbers where
  records := .object []
  loaded := false
  waiting := []
  stage := .idle
  file := none
  clock := 0
  runs := []
  answers := []

def respond (call : MutationCall numbers) (time : ℕ) (own : Option ℕ) (answer : Answer) :
    Coordinator numbers :=
  { coordinator with
    stage := .idle
    answers := coordinator.answers ++ [⟨call, time, coordinator.runs.length, own, answer⟩] }

def answerOf (record : JsonValue) (fingerprint : Text) : Answer :=
  if textAt record (js "fingerprint") ≠ some fingerprint then .mismatch
  else if textAt record (js "state") = some (js "pending") then .conflict
  else if textAt record (js "state") = some (js "failed") then .failure (recordedError record)
  else match memberOf record (js "response") with
    | some response => .response (cloneJson response)
    | none => .refused (.service .invalidRequest "Value must be finite JSON")

def requireInput : Option (Input numbers) → Except Failure (Input numbers)
  | some input => .ok input
  | none => serviceError .invalidRequest "Value must be finite JSON"

def requested (call : MutationCall numbers) (readings : Readings) :
    Except Failure (Run numbers) := do
  let scope ← requireString call.scope "Mutation scope" 256
  let key ← requireString call.key "Idempotency key" 200
  let input ← requireInput call.input
  .ok { scope, key, input
        fingerprint := fingerprintJson numbers input.1
        recordKey := recordKeyOf numbers scope key
        checked := readings.check
        expiresAt := readings.start + retentionMs
        outcome := none }

def existing (run : Run numbers) : Option JsonValue :=
  (memberOf coordinator.records run.recordKey).filter (unexpired run.checked)

def examine (call : MutationCall numbers) (readings : Readings) : Coordinator numbers :=
  match requested call readings with
  | .error failure => coordinator.respond call readings.check none (.refused failure)
  | .ok run =>
    match coordinator.existing run with
    | some record =>
      coordinator.respond call readings.check none (answerOf record run.fingerprint)
    | none =>
      let pruned := prune readings.prune coordinator.records
      if maxRecords ≤ sizeOf pruned then
        { coordinator with records := pruned }.respond call readings.check none
          (.refused (.service .limitExceeded "Mutation history exceeds its limit"))
      else
        { coordinator with
          records := withMember pruned run.recordKey
            (pendingRecord run.expiresAt run.fingerprint run.scope)
          stage := .opening run }

def turn (readings : Readings) : Option (Coordinator numbers) :=
  match coordinator.stage, coordinator.waiting with
  | .idle, call :: waiting =>
    if readings.follow coordinator.clock then
      let turned := { coordinator with waiting := waiting, clock := readings.start }
      if coordinator.loaded then some (turned.examine call readings)
      else if durable then some { turned with stage := .loading call }
      else some ({ turned with loaded := true }.examine call readings)
    else none
  | _, _ => none

def reads (readable : Bool) (readings : Readings) : Option (Coordinator numbers) :=
  match coordinator.stage with
  | .loading call =>
    if readings.follow coordinator.clock then
      let timed := { coordinator with clock := readings.start }
      if readable then
        match loadRecords readings.load coordinator.file with
        | .error _ => some (timed.respond call readings.check none .unread)
        | .ok records =>
          some ({ timed with records := records, loaded := true }.examine call readings)
      else some (timed.respond call readings.check none .unread)
    else none
  | _ => none

def fits : Bool :=
  encodedBytes numbers (historyJson coordinator.records) ≤ maxMutationBytes

/-- The file with the records that are in memory. -/
def persisted : Option JsonValue := some (normalizeJson (historyJson coordinator.records))

def persist : WriteOutcome → Option (Option ThrownError × Option JsonValue)
  | .done =>
    if !durable then some (none, coordinator.file)
    else if coordinator.fits then some (none, coordinator.persisted)
    else none
  | .failed landed =>
    if !durable then none
    else if coordinator.fits then
      some (some internalError, if landed then coordinator.persisted else coordinator.file)
    else if landed then none
    else some (some persistedLimitError, coordinator.file)

def assign (recordKey : Text) (changed : JsonValue → JsonValue) : Coordinator numbers :=
  { coordinator with
    records := withMember coordinator.records recordKey
      (changed ((memberOf coordinator.records recordKey).getD .null)) }

def fail (id : ℕ) (run : Run numbers) (error : ThrownError) : Coordinator numbers :=
  { coordinator.assign run.recordKey (failed · error) with stage := .failing id error }

/-- The writing of the file has ended. -/
def written (outcome : WriteOutcome) : Option (Coordinator numbers) :=
  match coordinator.persist durable outcome with
  | none => none
  | some (error, file) =>
    let wrote := { coordinator with file := file }
    match coordinator.stage, error with
    | .opening run, none =>
      some { wrote with runs := wrote.runs ++ [run], stage := .working wrote.runs.length }
    | .opening run, some error =>
      some (wrote.respond run.call run.checked none (.unwritten error))
    | .succeeding id response, none =>
      (wrote.runs[id]?).map fun run => wrote.respond run.call run.checked id (.response response)
    | .succeeding id _, some error => (wrote.runs[id]?).map fun run => wrote.fail id run error
    | .failing id thrown, none =>
      (wrote.runs[id]?).map fun run => wrote.respond run.call run.checked id (.failure thrown)
    | .failing id _, some error =>
      (wrote.runs[id]?).map fun run => wrote.respond run.call run.checked id (.unwritten error)
    | _, _ => none

def note (id : ℕ) (outcome : WorkOutcome) : Coordinator numbers :=
  { coordinator with
    runs := coordinator.runs.modify id fun run => { run with outcome := some outcome } }

def works (result : WorkResult) : Option (Coordinator numbers) :=
  match coordinator.stage with
  | .working id =>
    match coordinator.runs[id]? with
    | none => none
    | some run =>
      match result with
      | .resolves (some response) =>
        some { (coordinator.note id (.resolved (some response))).assign run.recordKey
          (succeeded · response) with stage := .succeeding id response }
      | .resolves none =>
        some ((coordinator.note id (.resolved none)).fail id run finiteJsonError)
      | .rejects rejection =>
        let error := normalizeServiceError rejection
        some ((coordinator.note id (.rejected error)).fail id run error)
  | _ => none

/-- The file is being written. -/
def isWriting : Bool :=
  match coordinator.stage with
  | .opening _ | .succeeding _ _ | .failing _ _ => true
  | _ => false

/-- The process ends and another one starts. -/
def restart (landed : Bool) : Coordinator numbers :=
  { coordinator with
    records := .object []
    loaded := false
    waiting := []
    stage := .idle
    file :=
      if landed && coordinator.isWriting && durable && coordinator.fits then
        coordinator.persisted
      else coordinator.file }

/-- The next state. -/
def step : MutationEvent numbers → Option (Coordinator numbers)
  | .execute call => some { coordinator with waiting := coordinator.waiting ++ [call] }
  | .turn readings => coordinator.turn durable readings
  | .reads readable readings => coordinator.reads readable readings
  | .written outcome => coordinator.written durable outcome
  | .works result => coordinator.works result
  | .restart landed => some (coordinator.restart durable landed)

end Coordinator

/-- The coordinator among its callers, with a file or without one. -/
def mutationMachine (numbers : NumberFormat) (durable : Bool) :
    Machine (Coordinator numbers) (MutationEvent numbers) where
  start := .new
  step := Coordinator.step durable

end Holonomy.Service
