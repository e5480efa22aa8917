import Holonomy.Network.DiagnosticsTrace

/-!
# The accumulator of response bodies

The inspector puts the chunks that diagnostics carry together to bodies. A request is pending from
the event that announces it to its end; its chunks count for the request, for its process and for
the service.
-/

namespace Holonomy.Inspector

open Foundation Network

/-- The limits of an accumulator; the time to live is in milliseconds. -/
structure BodyLimits where
  maxPendingPerProcess : ℕ
  maxPendingTotal : ℕ
  maxProcessBytes : ℕ
  maxResponseBytes : ℕ
  maxTotalBytes : ℕ
  ttlMs : ℤ

/-- A process and a request of it. -/
abbrev RequestKey : Type := Text × Text

/-- A request whose body is put together. -/
structure PendingBody where
  key : RequestKey
  bytes : ℕ
  chunks : List (List UInt8)
  unavailable : Bool
  updatedAt : ℤ
deriving DecidableEq

/-- A request without its bytes. -/
def PendingBody.emptied (entry : PendingBody) : PendingBody :=
  { entry with bytes := 0, chunks := [] }

def PendingBody.spoiled (entry : PendingBody) : PendingBody := { entry with unavailable := true }

/-- A request that something was heard of. -/
def PendingBody.heard (now : ℤ) (entry : PendingBody) : PendingBody :=
  { entry with updatedAt := now }

/-- A request with a chunk more. -/
def PendingBody.extended (chunk : List UInt8) (entry : PendingBody) : PendingBody :=
  { entry with bytes := entry.bytes + chunk.length, chunks := entry.chunks ++ [chunk] }

structure BodyAccumulator where
  pending : List PendingBody
  processBytes : Text → ℕ
  totalBytes : ℕ
  stored : List (RequestKey × List UInt8)

/-- What the accumulator reads of a diagnostic. -/
inductive BodyEvent where
  | requestWillBeSent
  | dataReceived (dataBase64 : Option Text) (bodyUnavailable : Bool)
  | loadingFinished
  | loadingFailed
  | other
deriving DecidableEq

/-- What the accumulator reads of what a sink is told. -/
def BodyEvent.ofDiagnostic : NetworkDiagnosticsEvent → BodyEvent
  | .requestWillBeSent _ => .requestWillBeSent
  | .responseReceived _ => .other
  | .dataReceived dataBase64 bodyUnavailable _ => .dataReceived dataBase64 bodyUnavailable
  | .loadingFinished _ => .loadingFinished
  | .loadingFailed _ _ => .loadingFailed

namespace BodyAccumulator

/-- An accumulator without requests. -/
def new : BodyAccumulator := ⟨[], fun _ => 0, 0, []⟩

def find (accumulator : BodyAccumulator) (key : RequestKey) : Option PendingBody :=
  accumulator.pending.find? fun entry => entry.key = key

def modify (accumulator : BodyAccumulator) (key : RequestKey) (change : PendingBody → PendingBody) :
    BodyAccumulator :=
  { accumulator with pending := modifyAt PendingBody.key key change accumulator.pending }

def release (accumulator : BodyAccumulator) (entry : PendingBody) : BodyAccumulator :=
  if entry.bytes = 0 then accumulator
  else
    let process := entry.key.1
    { accumulator.modify entry.key .emptied with
      totalBytes := accumulator.totalBytes - entry.bytes
      processBytes := Function.update accumulator.processBytes process
        (accumulator.processBytes process - entry.bytes) }

def drop (accumulator : BodyAccumulator) (key : RequestKey) : BodyAccumulator :=
  match accumulator.find key with
  | none => accumulator
  | some entry =>
    let released := accumulator.release entry
    { released with pending := without PendingBody.key key released.pending }

/-- Forget some requests. -/
def dropAll (accumulator : BodyAccumulator) (entries : List PendingBody) : BodyAccumulator :=
  entries.foldl (fun left entry => left.drop entry.key) accumulator

/-- Forget the requests that nothing was heard of for some time. -/
def prune (limits : BodyLimits) (now : ℤ) (accumulator : BodyAccumulator) : BodyAccumulator :=
  accumulator.dropAll (accumulator.pending.filter fun entry => entry.updatedAt ≤ now - limits.ttlMs)

/-- Forget the requests of a process. -/
def clear (accumulator : BodyAccumulator) (process : Text) : BodyAccumulator :=
  let left := accumulator.dropAll (accumulator.pending.filter fun entry => entry.key.1 = process)
  { left with processBytes := Function.update left.processBytes process 0 }

/-- The body of a request is unavailable. -/
def spoil (accumulator : BodyAccumulator) (entry : PendingBody) : BodyAccumulator :=
  (accumulator.release entry).modify entry.key .spoiled

def exceeds (limits : BodyLimits) (accumulator : BodyAccumulator) (entry : PendingBody)
    (chunk : List UInt8) : Bool :=
  entry.bytes + chunk.length > limits.maxResponseBytes ||
    accumulator.processBytes entry.key.1 + chunk.length > limits.maxProcessBytes ||
    accumulator.totalBytes + chunk.length > limits.maxTotalBytes

def put (accumulator : BodyAccumulator) (entry : PendingBody) (chunk : List UInt8) :
    BodyAccumulator :=
  { accumulator.modify entry.key (.extended chunk) with
    processBytes := Function.update accumulator.processBytes entry.key.1
      (accumulator.processBytes entry.key.1 + chunk.length)
    totalBytes := accumulator.totalBytes + chunk.length }

/-- Take the data of a request. -/
def append (limits : BodyLimits) (accumulator : BodyAccumulator) (entry : PendingBody)
    (dataBase64 : Option Text) (bodyUnavailable : Bool) : BodyAccumulator :=
  let marked := if bodyUnavailable then accumulator.spoil entry else accumulator
  match dataBase64 with
  | none => marked
  | some text =>
    if bodyUnavailable || entry.unavailable then marked
    else
      match base64Decode text with
      | none => accumulator.spoil entry
      | some chunk =>
        if accumulator.exceeds limits entry chunk then accumulator.spoil entry
        else accumulator.put entry chunk

/-- Hand the body of a request to the cache. -/
def commit (accumulator : BodyAccumulator) (entry : PendingBody) : BodyAccumulator :=
  { accumulator with stored := accumulator.stored ++ [(entry.key, entry.chunks.flatten)] }

def requestsOf (accumulator : BodyAccumulator) (process : Text) : ℕ :=
  accumulator.pending.countP fun entry => entry.key.1 = process

def announce (limits : BodyLimits) (now : ℤ) (accumulator : BodyAccumulator) (key : RequestKey) :
    BodyAccumulator :=
  let left := accumulator.drop key
  if left.requestsOf key.1 ≥ limits.maxPendingPerProcess ∨
      left.pending.length ≥ limits.maxPendingTotal then left
  else { left with pending := left.pending ++ [⟨key, 0, [], false, now⟩] }

/-- Take an event; the clock is read to forget old requests and again to note the event. -/
def ingest (limits : BodyLimits) (accumulator : BodyAccumulator) (key : RequestKey)
    (event : BodyEvent) (now later : ℤ) : BodyAccumulator :=
  let pruned := accumulator.prune limits now
  match event with
  | .requestWillBeSent => pruned.announce limits later key
  | _ =>
    match pruned.find key with
    | none => pruned
    | some found =>
      let entry := found.heard later
      let noted := pruned.modify key (.heard later)
      match event with
      | .dataReceived dataBase64 bodyUnavailable =>
        noted.append limits entry dataBase64 bodyUnavailable
      | .loadingFinished => (if entry.unavailable then noted else noted.commit entry).drop key
      | .loadingFailed => noted.drop key
      | _ => noted

end BodyAccumulator

end Holonomy.Inspector
