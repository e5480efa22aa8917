import Holonomy.Streams.WebReadable

/-!
# Writable streams of the web

A stream hands the chunks that were written to its sink, one after the other, and closes it or
aborts it. One asynchronous loop advances the queue: it waits for `start`, then for the result of
every call of the sink.
-/

namespace Holonomy.Streams

open Foundation

/-- What a writable stream is doing. -/
inductive WritableState where
  | aborting
  | closed
  | errored
  | erroring
  | writable
  deriving DecidableEq

/-- What a record of the queue asks of the sink. -/
inductive RecordKind (Chunk : Type) where
  | close
  | write (chunk : Chunk)
  deriving DecidableEq

structure WritableRecord (Chunk : Type) where
  kind : RecordKind Chunk
  deferred : ℕ
  size : ℚ

/-- A call of the sink. -/
inductive SinkCall (Chunk : Type) where
  | write (chunk : Chunk)
  | close
  | abort
  deriving DecidableEq

/-- What happens between a stream and its sink. -/
inductive SinkEvent (Chunk : Type) where
  | accepted (chunk : Chunk)
  | called (call : SinkCall Chunk)
  | finished (succeeded : Bool)
  | errored
  deriving DecidableEq

/-- How a promise is settled. -/
inductive Settlement (Reason : Type) where
  | resolved
  | rejected (error : Option (Failure Reason))
  deriving DecidableEq

/-- An activation that waits for a callback to return. -/
inductive WritableFrame (Chunk : Type) where
  | start
  | size (chunk : Chunk)
  | sink
  | abort
  deriving DecidableEq

/-- Whether the constructor is waiting. -/
def WritableFrame.isStart {Chunk : Type} : WritableFrame Chunk → Bool
  | .start => true
  | _ => false

/-- The promise of `start`. -/
inductive StartPromise (Reason : Type) where
  | pending
  | resolved
  | rejected (error : Option (Failure Reason)) (handled : Bool)
  deriving DecidableEq

def StartPromise.isPending {Reason : Type} : StartPromise Reason → Bool
  | .pending => true
  | _ => false

/-- Where the loop is. -/
inductive AdvancePosition (Chunk : Type) where
  | idle
  | awaitingStart
  | sink (record : WritableRecord Chunk)
  | running

def AdvancePosition.record {Chunk : Type} : AdvancePosition Chunk → Option (WritableRecord Chunk)
  | .sink record => some record
  | _ => none

/-- Whether the loop does not run. -/
def AdvancePosition.isIdle {Chunk : Type} : AdvancePosition Chunk → Bool
  | .idle => true
  | _ => false

def WritableRecord.call {Chunk : Type} (record : WritableRecord Chunk) : SinkCall Chunk :=
  match record.kind with
  | .close => .close
  | .write chunk => .write chunk

structure RuntimeWritableStream (Chunk Reason : Type) where
  highWaterMark : ℚ
  hasSize : Bool
  queue : List (WritableRecord Chunk)
  abortPromise : Option ℕ
  abortDeferred : Option ℕ
  abortReason : Option (Failure Reason)
  abortStarted : Bool
  activeCloseAbortError : Option (Failure Reason)
  activeCloseAbortWriter : Option ℕ
  activeRecord : Option (WritableRecord Chunk)
  advancing : Bool
  backpressure : Bool
  closeRequested : Bool
  errorDeferred : Option ℕ
  queueTotalSize : ℚ
  state : WritableState
  storedError : Option (Failure Reason)
  writer : Option ℕ
  startPromise : StartPromise Reason
  /-- The activations that wait for a callback, the innermost first. -/
  frames : List (WritableFrame Chunk)
  position : AdvancePosition Chunk
  abortAwaited : Bool
  writers : ℕ
  released : List ℕ
  closedAborted : List ℕ
  /-- The number of deferreds that were made for writes, closes and aborts. -/
  deferreds : ℕ
  settlements : List (ℕ × Settlement Reason)
  closeSettled : Bool
  /-- The deferred of the ready promises, those before it having lower numbers. -/
  ready : ℕ
  readySettled : List ℕ
  /-- The writers that were asked for a ready promise, with its deferred. -/
  readySources : List (ℕ × ℕ)
  trace : List (SinkEvent Chunk)

namespace RuntimeWritableStream

variable {Chunk Reason : Type} (stream : RuntimeWritableStream Chunk Reason)

def new (hasSize : Bool) (highWaterMark : ℚ) : RuntimeWritableStream Chunk Reason :=
  { highWaterMark, hasSize, queue := [], abortPromise := none, abortDeferred := none,
    abortReason := none, abortStarted := false, activeCloseAbortError := none,
    activeCloseAbortWriter := none, activeRecord := none, advancing := false,
    backpressure := false, closeRequested := false, errorDeferred := none, queueTotalSize := 0,
    state := .writable, storedError := none, writer := none, startPromise := .pending,
    frames := [.start], position := .idle, abortAwaited := false, writers := 0, released := [],
    closedAborted := [], deferreds := 0, settlements := [], closeSettled := false, ready := 0,
    readySettled := [0], readySources := [], trace := [] }

/-- A promise that is settled when it is made. -/
def settleNow (settlement : Settlement Reason) : RuntimeWritableStream Chunk Reason :=
  { stream with
    deferreds := stream.deferreds + 1
    settlements := stream.settlements ++ [(stream.deferreds, settlement)] }

def updateBackpressure : RuntimeWritableStream Chunk Reason :=
  if stream.state ≠ .writable then stream
  else
    let next := decide (stream.highWaterMark - stream.queueTotalSize ≤ 0)
    if next = stream.backpressure then stream
    else if next then { stream with backpressure := true, ready := stream.ready + 1 }
    else { stream with
      backpressure := false
      readySettled := stream.readySettled ++ [stream.ready] }

def rejectReady : RuntimeWritableStream Chunk Reason :=
  if stream.backpressure then { stream with readySettled := stream.readySettled ++ [stream.ready] }
  else { stream with
    ready := stream.ready + 1
    readySettled := stream.readySettled ++ [stream.ready + 1] }

def rejectQueue (error : Failure Reason) : RuntimeWritableStream Chunk Reason :=
  { stream with
    queue := []
    settlements := stream.settlements ++
      stream.queue.map fun record => (record.deferred, .rejected (some error)) }

def finishError : RuntimeWritableStream Chunk Reason :=
  if stream.state ≠ .erroring then stream
  else { stream with
    state := .errored
    settlements := stream.settlements ++
      stream.errorDeferred.toList.map (·, .rejected stream.storedError) }

def withErrorDeferred : RuntimeWritableStream Chunk Reason :=
  match stream.errorDeferred with
  | some _ => stream
  | none => { stream with
    errorDeferred := some stream.deferreds
    deferreds := stream.deferreds + 1 }

/-- Nothing more is written because of an error. -/
def startError (error : Failure Reason) : RuntimeWritableStream Chunk Reason :=
  ({ stream.withErrorDeferred with
    state := .erroring
    storedError := some error
    queueTotalSize := (stream.activeRecord.map WritableRecord.size).getD 0
    closeSettled := true
    trace := stream.trace ++ [SinkEvent.errored] }.rejectQueue error).rejectReady

def errorInternal (reason : Option (Failure Reason)) : RuntimeWritableStream Chunk Reason :=
  if stream.state ≠ .writable then stream
  else if stream.advancing then stream.startError (toWebStreamError reason)
  else (stream.startError (toWebStreamError reason)).finishError

def finishAbort : RuntimeWritableStream Chunk Reason :=
  if stream.abortStarted ∨ stream.state ≠ .aborting then stream
  else { stream with
    abortStarted := true
    frames := .abort :: stream.frames
    trace := stream.trace ++ [.called .abort] }

def finish : RuntimeWritableStream Chunk Reason :=
  let ended := { stream with activeRecord := none, advancing := false, position := .idle }
  if stream.state = .aborting then ended.finishAbort
  else if stream.state = .erroring then ended.finishError
  else ended

def advance : RuntimeWritableStream Chunk Reason :=
  match stream.queue with
  | record :: queue =>
    if stream.state = .writable then { stream with
      queue
      activeRecord := some record
      position := .sink record
      frames := .sink :: stream.frames
      trace := stream.trace ++ [.called record.call] }
    else stream.finish
  | [] => stream.finish

/-- The loop is started when it does not run. -/
def advanceQueue : RuntimeWritableStream Chunk Reason :=
  if stream.advancing then stream else { stream with advancing := true, position := .awaitingStart }

def isPendingTerminal : Bool := stream.state = .aborting || stream.state = .erroring

def served (record : WritableRecord Chunk) (succeeded : Bool) (settlement : Settlement Reason) :
    RuntimeWritableStream Chunk Reason :=
  { stream with
    position := .running
    settlements := stream.settlements ++ [(record.deferred, settlement)]
    trace := stream.trace ++ [.finished succeeded] }

/-- A record no longer takes space. -/
def freed (record : WritableRecord Chunk) : RuntimeWritableStream Chunk Reason :=
  { stream with queueTotalSize := max 0 (stream.queueTotalSize - record.size) }

/-- The loop goes on when the sink has closed. -/
def closeSucceeded (record : WritableRecord Chunk) : RuntimeWritableStream Chunk Reason :=
  if stream.isPendingTerminal then
    (stream.served record true (.rejected stream.storedError)).finish
  else if stream.state ≠ .writable then { stream with position := .running }.finish
  else
    let closed := { stream with
      activeRecord := none
      state := .closed
      closeSettled := true }.served record true .resolved
    closed.updateBackpressure.finish

def closeFailed (record : WritableRecord Chunk) (error : Option (Failure Reason)) :
    RuntimeWritableStream Chunk Reason :=
  let failed := stream.served record false (.rejected error)
  ({ failed with
    closedAborted := failed.closedAborted ++ failed.activeCloseAbortWriter.toList }.errorInternal
      error).finish

/-- The loop goes on when the sink has written. -/
def writeSucceeded (record : WritableRecord Chunk) : RuntimeWritableStream Chunk Reason :=
  if stream.isPendingTerminal then
    (({ stream with activeRecord := none }.freed record).served record true .resolved).finish
  else if stream.state ≠ .writable then { stream with position := .running }.finish
  else
    let written := ({ stream with activeRecord := none }.freed record).served record true .resolved
    written.updateBackpressure.advance

def writeFailed (record : WritableRecord Chunk) (error : Option (Failure Reason)) :
    RuntimeWritableStream Chunk Reason :=
  let failed := (stream.freed record).served record false (.rejected error)
  if failed.isPendingTerminal then failed.finish else (failed.errorInternal error).finish

/-- The loop goes on when the sink has served a record. -/
def succeeded (record : WritableRecord Chunk) : RuntimeWritableStream Chunk Reason :=
  match record.kind with
  | .close => stream.closeSucceeded record
  | .write _ => stream.writeSucceeded record

def failed (record : WritableRecord Chunk) (error : Option (Failure Reason)) :
    RuntimeWritableStream Chunk Reason :=
  match record.kind with
  | .close => stream.closeFailed record error
  | .write _ => stream.writeFailed record error

def push (kind : RecordKind Chunk) (size : ℚ) : RuntimeWritableStream Chunk Reason :=
  { stream with
    queue := stream.queue ++ [{ kind, deferred := stream.deferreds, size }]
    deferreds := stream.deferreds + 1 }

def pushWrite (chunk : Chunk) (size : ℚ) : RuntimeWritableStream Chunk Reason :=
  { stream.push (.write chunk) size with
    queueTotalSize := stream.queueTotalSize + size
    trace := stream.trace ++ [SinkEvent.accepted chunk] }

def accept (chunk : Chunk) (answer : SizeAnswer Reason) : RuntimeWritableStream Chunk Reason :=
  match normalizeWebChunkSize answer with
  | .error error =>
    let errored := stream.errorInternal error
    errored.settleNow (.rejected errored.storedError)
  | .ok size => (stream.pushWrite chunk size).updateBackpressure.advanceQueue

/-- The error of an operation that the state does not allow. -/
def invalidStreamState {Reason : Type} (message : String) : Settlement Reason :=
  .rejected (some (.invalidState message))

def isFailed : Bool :=
  stream.state = .aborting || stream.state = .errored || stream.state = .erroring

def writeFromWriter (chunk : Chunk) : RuntimeWritableStream Chunk Reason :=
  if stream.isFailed then stream.settleNow (.rejected stream.storedError)
  else if stream.state ≠ .writable ∨ stream.closeRequested then
    stream.settleNow (invalidStreamState "WritableStream is not writable")
  else if stream.hasSize then { stream with frames := .size chunk :: stream.frames }
  else stream.accept chunk .absent

def closeInternal : RuntimeWritableStream Chunk Reason :=
  if stream.isFailed then stream.settleNow (.rejected stream.storedError)
  else if stream.state ≠ .writable ∨ stream.closeRequested then
    stream.settleNow (invalidStreamState "WritableStream cannot be closed twice")
  else ({ stream with closeRequested := true }.push .close 0).advanceQueue

/-- Nothing more is written, and the sink is to be aborted. -/
def startAbort (reason : Option (Failure Reason)) : RuntimeWritableStream Chunk Reason :=
  ({ stream with
    state := .aborting
    storedError := some (toWebStreamError reason)
    abortReason := reason
    closeRequested := true
    abortDeferred := some stream.deferreds
    abortPromise := some stream.deferreds
    deferreds := stream.deferreds + 1
    queueTotalSize := (stream.activeRecord.map WritableRecord.size).getD 0
    closeSettled := true }.rejectQueue (toWebStreamError reason)).rejectReady.advanceQueue

def isClosing : Bool := stream.activeRecord.any fun record => match record.kind with
  | .close => true
  | .write _ => false

def abortInternal (reason : Option (Failure Reason)) (writer : Option ℕ) :
    RuntimeWritableStream Chunk Reason :=
  if stream.state = .closed ∨ stream.state = .errored then stream.settleNow .resolved
  else if stream.abortPromise.isSome then stream
  else if stream.state = .erroring then
    if stream.errorDeferred.isSome then stream
    else stream.settleNow (.rejected stream.storedError)
  else if stream.isClosing then { stream with
    activeCloseAbortError := some (toWebStreamError reason)
    activeCloseAbortWriter := writer
    abortPromise := stream.activeRecord.map WritableRecord.deferred }
  else stream.startAbort reason

end RuntimeWritableStream

/-- What can happen to a stream. -/
inductive WritableEvent (Chunk Reason : Type) where
  | startReturned
  | startResolved
  | startRejected (error : Option (Failure Reason))
  | startHandled
  | startAwaited
  | error (reason : Option (Failure Reason))
  | getWriter
  | readReady (writer : ℕ)
  | releaseLock (writer : ℕ)
  | write (writer : ℕ) (chunk : Chunk)
  | sizeReturned (answer : SizeAnswer Reason)
  | closeFromWriter (writer : ℕ)
  /-- The stream is closed by somebody who holds it. -/
  | close
  | abortFromWriter (writer : ℕ) (reason : Option (Failure Reason))
  /-- The stream is aborted by somebody who holds it. -/
  | abort (reason : Option (Failure Reason))
  /-- The stream is aborted by the other side of a pair. -/
  | abortFromPeer (reason : Option (Failure Reason))
  | sinkReturned
  | sinkThrew (error : Option (Failure Reason))
  /-- The promise of `write` or `close` is resolved. -/
  | sinkResolved
  /-- The promise of `write` or `close` is rejected. -/
  | sinkRejected (error : Option (Failure Reason))
  | abortReturned
  | abortThrew (error : Option (Failure Reason))
  | abortResolved
  | abortRejected (error : Option (Failure Reason))

namespace RuntimeWritableStream

variable {Chunk Reason : Type} (stream : RuntimeWritableStream Chunk Reason)

def startReturned : Option (RuntimeWritableStream Chunk Reason) :=
  match stream.frames with
  | .start :: frames => some { stream with frames }.updateBackpressure
  | _ => none

def startSettled (result : StartPromise Reason) : Option (RuntimeWritableStream Chunk Reason) :=
  if stream.frames.any WritableFrame.isStart ∨ ¬ stream.startPromise.isPending then none
  else some { stream with startPromise := result }

def startHandled : Option (RuntimeWritableStream Chunk Reason) :=
  match stream.frames, stream.startPromise with
  | [], .rejected error false =>
    some ({ stream with startPromise := .rejected error true }.errorInternal error)
  | _, _ => none

/-- The stream after the loop went on behind `start`. -/
def startAwaited : Option (RuntimeWritableStream Chunk Reason) :=
  match stream.frames, stream.position, stream.startPromise with
  | [], .awaitingStart, .resolved => some { stream with position := .running }.advance
  | [], .awaitingStart, .rejected error true =>
    let running := { stream with position := .running }
    some (if stream.isPendingTerminal then running.finish else (running.errorInternal error).finish)
  | _, _, _ => none

def sizeReturned (answer : SizeAnswer Reason) : Option (RuntimeWritableStream Chunk Reason) :=
  match stream.frames with
  | .size chunk :: frames => some ({ stream with frames }.accept chunk answer)
  | _ => none

def sinkReturned : Option (RuntimeWritableStream Chunk Reason) :=
  match stream.frames with
  | .sink :: frames => some { stream with frames }
  | _ => none

/-- The stream after `write` or `close` has thrown. -/
def sinkThrew (error : Option (Failure Reason)) : Option (RuntimeWritableStream Chunk Reason) :=
  match stream.frames, stream.position with
  | .sink :: frames, .sink record => some ({ stream with frames }.failed record error)
  | _, _ => none

def sinkResolved : Option (RuntimeWritableStream Chunk Reason) :=
  match stream.frames, stream.position with
  | [], .sink record => some (stream.succeeded record)
  | _, _ => none

def sinkRejected (error : Option (Failure Reason)) : Option (RuntimeWritableStream Chunk Reason) :=
  match stream.frames, stream.position with
  | [], .sink record => some (stream.failed record error)
  | _, _ => none

def aborted (succeeded : Bool) (settlement : Settlement Reason) :
    RuntimeWritableStream Chunk Reason :=
  { stream with
    state := .errored
    abortAwaited := false
    settlements := stream.settlements ++ stream.abortDeferred.toList.map (·, settlement)
    trace := stream.trace ++ [.finished succeeded] }

def abortReturned : Option (RuntimeWritableStream Chunk Reason) :=
  match stream.frames with
  | .abort :: frames => some { stream with frames, abortAwaited := true }
  | _ => none

def abortThrew (error : Option (Failure Reason)) : Option (RuntimeWritableStream Chunk Reason) :=
  match stream.frames with
  | .abort :: frames => some ({ stream with frames }.aborted false (.rejected error))
  | _ => none

def abortSettled (succeeded : Bool) (settlement : Settlement Reason) :
    Option (RuntimeWritableStream Chunk Reason) :=
  if stream.frames = [] ∧ stream.abortAwaited then some (stream.aborted succeeded settlement)
  else none

def getWriter : RuntimeWritableStream Chunk Reason :=
  if stream.writer.isSome then stream
  else { stream with
    writer := some stream.writers
    writers := stream.writers + 1
    readySources := stream.readySources ++ [(stream.writers, stream.ready)] }

def readReady (writer : ℕ) : RuntimeWritableStream Chunk Reason :=
  if stream.writer = some writer then
    { stream with readySources := stream.readySources ++ [(writer, stream.ready)] }
  else stream

def releaseLock (writer : ℕ) : RuntimeWritableStream Chunk Reason :=
  if stream.writer = some writer then
    { stream with writer := none, released := stream.released ++ [writer] }
  else stream

def byWriter (writer : ℕ) (next : RuntimeWritableStream Chunk Reason) :
    RuntimeWritableStream Chunk Reason :=
  if stream.writer = some writer then next
  else stream.settleNow (invalidStreamState "Writer lock has been released")

/-- The stream after an operation of somebody who holds the stream, which nobody does before the
constructor returns. -/
def constructed (next : RuntimeWritableStream Chunk Reason) :
    Option (RuntimeWritableStream Chunk Reason) :=
  if stream.frames.any WritableFrame.isStart then none else some next

/-- The stream after something has happened. -/
def step : WritableEvent Chunk Reason → Option (RuntimeWritableStream Chunk Reason)
  | .startReturned => stream.startReturned
  | .startResolved => stream.startSettled .resolved
  | .startRejected error => stream.startSettled (.rejected error false)
  | .startHandled => stream.startHandled
  | .startAwaited => stream.startAwaited
  | .error reason => some (stream.errorInternal reason)
  | .getWriter => stream.constructed stream.getWriter
  | .readReady writer => stream.constructed (stream.readReady writer)
  | .releaseLock writer => stream.constructed (stream.releaseLock writer)
  | .write writer chunk => stream.constructed
      (stream.byWriter writer (stream.writeFromWriter chunk))
  | .sizeReturned answer => stream.sizeReturned answer
  | .closeFromWriter writer => stream.constructed (stream.byWriter writer stream.closeInternal)
  | .close => stream.constructed
      (if stream.writer.isSome then
        stream.settleNow (invalidStreamState "Cannot close a locked WritableStream")
      else stream.closeInternal)
  | .abortFromWriter writer reason => stream.constructed
      (stream.byWriter writer (stream.abortInternal reason (some writer)))
  | .abort reason => stream.constructed
      (if stream.writer.isSome then
        stream.settleNow (invalidStreamState "Cannot abort a locked WritableStream")
      else stream.abortInternal reason none)
  | .abortFromPeer reason => stream.constructed (stream.abortInternal reason none)
  | .sinkReturned => stream.sinkReturned
  | .sinkThrew error => stream.sinkThrew error
  | .sinkResolved => stream.sinkResolved
  | .sinkRejected error => stream.sinkRejected error
  | .abortReturned => stream.abortReturned
  | .abortThrew error => stream.abortThrew error
  | .abortResolved => stream.abortSettled true .resolved
  | .abortRejected error => stream.abortSettled false (.rejected error)

def machine (hasSize : Bool) (highWaterMark : ℚ) :
    Machine (RuntimeWritableStream Chunk Reason) (WritableEvent Chunk Reason) where
  start := new hasSize highWaterMark
  step := step

end RuntimeWritableStream

end Holonomy.Streams
