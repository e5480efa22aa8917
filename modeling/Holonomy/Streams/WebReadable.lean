import Holonomy.Foundation.Machine

/-!
# Readable streams of the web

A stream keeps chunks that were enqueued and not read, or reads that wait for chunks. It calls the
`pull` callback of its source while it wants chunks.
-/

namespace Holonomy.Streams

open Foundation

inductive Failure (Reason : Type) where
  | given (reason : Reason)
  /-- The stream was aborted and no reason was given. -/
  | aborted
  | invalidArgument (message : String)
  | invalidState (message : String)
  deriving DecidableEq

def toWebStreamError {Reason : Type} : Option (Failure Reason) → Failure Reason
  | none => .aborted
  | some error => error

inductive SizeAnswer (Reason : Type) where
  /-- There is no callback, or it returns undefined. -/
  | absent
  | number (size : ℚ)
  | other
  | throws (reason : Option (Failure Reason))

/-- The error for a size that is none. -/
def invalidSize {Reason : Type} : Option (Failure Reason) :=
  some (.invalidArgument "Stream chunk size must be a non-negative finite number")

def normalizeWebChunkSize {Reason : Type} : SizeAnswer Reason → Except (Option (Failure Reason)) ℚ
  | .absent => .ok 1
  | .number size => if size < 0 then .error invalidSize else .ok size
  | .other => .error invalidSize
  | .throws reason => .error reason

theorem size_nonneg {Reason : Type} {answer : SizeAnswer Reason} {size : ℚ}
    (normal : normalizeWebChunkSize answer = .ok size) : 0 ≤ size := by
  cases answer with
  | absent =>
    cases normal
    exact zero_le_one
  | number given =>
    change (if given < 0 then .error invalidSize else .ok given) = Except.ok size at normal
    by_cases negative : given < 0
    · rw [if_pos negative] at normal
      cases normal
    · rw [if_neg negative] at normal
      cases normal
      exact not_lt.mp negative
  | other => cases normal
  | throws reason => cases normal

/-- A chunk that was enqueued and not read. -/
structure QueuedChunk (Chunk : Type) where
  chunk : Chunk
  size : ℚ

/-- Whether a stream can be read. -/
inductive ReadableState where
  | closed
  | errored
  | readable
  deriving DecidableEq

/-- What the promise of a read settles with. -/
inductive ReadResult (Chunk Reason : Type) where
  | value (chunk : Chunk)
  | done
  | rejected (error : Failure Reason)
  deriving DecidableEq

/-- What an activation does when the callback that it waits for returns. -/
inductive Continuation (Chunk : Type) where
  | none
  | resolveRead (read : ℕ) (chunk : Chunk)
  deriving DecidableEq

/-- An activation that waits for a callback to return. -/
inductive Frame (Chunk : Type) where
  | start
  | pull (next : Continuation Chunk)
  | cancel
  deriving DecidableEq

/-- Whether the constructor is waiting. -/
def Frame.isStart {Chunk : Type} : Frame Chunk → Bool
  | .start => true
  | _ => false

inductive StartResult where
  /-- There is none yet, or there never will be one. -/
  | absent
  | pending
  | settled
  deriving DecidableEq

structure RuntimeReadableStream (Chunk Reason : Type) where
  highWaterMark : ℚ
  queue : List (QueuedChunk Chunk)
  /-- The reads that wait for a chunk, in the order they were made. -/
  readRequests : List ℕ
  hasPull : Bool
  closeRequested : Bool
  storedError : Option (Failure Reason)
  queueTotalSize : ℚ
  pulling : Bool
  pullAgain : Bool
  reader : Option ℕ
  started : Bool
  state : ReadableState
  /-- The activations that wait for a callback, the innermost first. -/
  frames : List (Frame Chunk)
  startResult : StartResult
  pullResults : ℕ
  readers : ℕ
  /-- The number of reads that were made; the next read has this number. -/
  reads : ℕ
  pulls : ℕ
  cancelled : Bool
  enqueued : List Chunk
  handed : List (ℕ × Chunk)
  settled : List (ℕ × ReadResult Chunk Reason)
  /-- The reads that were made inside an earlier read, with it. -/
  nested : List (ℕ × ℕ)

namespace RuntimeReadableStream

variable {Chunk Reason : Type} (stream : RuntimeReadableStream Chunk Reason)

def new (hasPull : Bool) (highWaterMark : ℚ) : RuntimeReadableStream Chunk Reason :=
  { highWaterMark, queue := [], readRequests := [], hasPull, closeRequested := false,
    storedError := none, queueTotalSize := 0, pulling := false, pullAgain := false, reader := none,
    started := false, state := .readable, frames := [.start], startResult := .absent,
    pullResults := 0, readers := 0, reads := 0, pulls := 0, cancelled := false, enqueued := [],
    handed := [], settled := [], nested := [] }

def settle (results : List (ℕ × ReadResult Chunk Reason)) : RuntimeReadableStream Chunk Reason :=
  { stream with settled := stream.settled ++ results }

def held : List (ℕ × Chunk) := stream.frames.filterMap fun
  | .pull (.resolveRead read chunk) => some (read, chunk)
  | _ => none

/-- How much more the stream wants, when it can still be read. -/
def controllerDesiredSize : Option ℚ :=
  if stream.state = .errored then none
  else if stream.state = .closed then some 0
  else some (stream.highWaterMark - stream.queueTotalSize)

def finishClose : RuntimeReadableStream Chunk Reason :=
  if stream.state ≠ .readable then stream
  else { stream with state := .closed, readRequests := [] }.settle
    (stream.readRequests.map (·, .done))

def controllerError (reason : Option (Failure Reason)) : RuntimeReadableStream Chunk Reason :=
  if stream.state ≠ .readable then stream
  else { stream with
    state := .errored
    storedError := some (toWebStreamError reason)
    queue := []
    queueTotalSize := 0
    readRequests := [] }.settle (stream.readRequests.map (·, .rejected (toWebStreamError reason)))

/-- An activation goes on. -/
def resume : Continuation Chunk → RuntimeReadableStream Chunk Reason
  | .none => stream
  | .resolveRead read chunk => stream.settle [(read, .value chunk)]

/-- A read waits for a chunk, or there are fewer than there should be. -/
def Demand : Prop :=
  stream.started ∧ stream.state = .readable ∧ ¬ stream.closeRequested ∧
    (stream.readRequests ≠ [] ∨ 0 < stream.controllerDesiredSize.getD 0)

instance : Decidable stream.Demand := by
  unfold Demand
  infer_instance

def callPullIfNeeded (next : Continuation Chunk) : RuntimeReadableStream Chunk Reason :=
  if ¬ stream.Demand then stream.resume next
  else if stream.pulling then { stream with pullAgain := true }.resume next
  else if ¬ stream.hasPull then stream.resume next
  else { stream with
    pulling := true
    pulls := stream.pulls + 1
    frames := .pull next :: stream.frames }

/-- The source closes the stream. -/
def controllerClose : RuntimeReadableStream Chunk Reason :=
  if stream.state ≠ .readable ∨ stream.closeRequested then stream
  else if stream.queue = [] then { stream with closeRequested := true }.finishClose
  else { stream with closeRequested := true }

/-- The read that waits longest gets a chunk. -/
def fulfil (read : ℕ) (readRequests : List ℕ) (chunk : Chunk) :
    RuntimeReadableStream Chunk Reason :=
  { stream with
    readRequests
    enqueued := stream.enqueued ++ [chunk]
    handed := stream.handed ++ [(read, chunk)] }.settle [(read, .value chunk)]

/-- A chunk is kept until it is read. -/
def store (chunk : Chunk) (size : ℚ) : RuntimeReadableStream Chunk Reason :=
  { stream with
    queue := stream.queue ++ [QueuedChunk.mk chunk size]
    queueTotalSize := stream.queueTotalSize + size
    enqueued := stream.enqueued ++ [chunk] }

def controllerEnqueue (chunk : Chunk) (answer : SizeAnswer Reason) :
    RuntimeReadableStream Chunk Reason :=
  if stream.state ≠ .readable ∨ stream.closeRequested then stream
  else match stream.readRequests with
    | read :: readRequests => (stream.fulfil read readRequests chunk).callPullIfNeeded .none
    | [] => match normalizeWebChunkSize answer with
      | .error error => stream.controllerError error
      | .ok size => (stream.store chunk size).callPullIfNeeded .none

def made : RuntimeReadableStream Chunk Reason :=
  { stream with
    reads := stream.reads + 1
    nested := stream.nested ++ stream.held.map fun entry => (stream.reads, entry.1) }

def take (queued : QueuedChunk Chunk) (queue : List (QueuedChunk Chunk)) :
    RuntimeReadableStream Chunk Reason :=
  { stream.made with
    queue
    queueTotalSize := max 0 (stream.queueTotalSize - queued.size)
    handed := stream.handed ++ [(stream.reads, queued.chunk)] }

def readFromReader : RuntimeReadableStream Chunk Reason :=
  match stream.queue with
  | queued :: queue =>
    if stream.closeRequested ∧ queue = [] then
      (stream.take queued queue).finishClose.resume (.resolveRead stream.reads queued.chunk)
    else (stream.take queued queue).callPullIfNeeded (.resolveRead stream.reads queued.chunk)
  | [] =>
    if stream.state = .closed then stream.made.settle [(stream.reads, .done)]
    else if stream.state = .errored then
      stream.made.settle [(stream.reads, .rejected (stream.storedError.getD .aborted))]
    else { stream.made with readRequests := stream.readRequests ++ [stream.reads] }.callPullIfNeeded
      .none

def cancelInternal (hasCancel : Bool) : RuntimeReadableStream Chunk Reason :=
  if stream.state ≠ .readable then stream
  else
    let closed := { stream with
      queue := []
      queueTotalSize := 0
      closeRequested := true
      cancelled := true }.finishClose
    if hasCancel then { closed with frames := .cancel :: closed.frames } else closed

end RuntimeReadableStream

/-- What can happen to a stream. -/
inductive ReadableEvent (Chunk Reason : Type) where
  | startReturned
  | startThrew (reason : Option (Failure Reason))
  | startResolved
  | startRejected (reason : Option (Failure Reason))
  | enqueue (chunk : Chunk) (answer : SizeAnswer Reason)
  | close
  | error (reason : Option (Failure Reason))
  | getReader
  | read (reader : ℕ)
  | releaseLock (reader : ℕ)
  /-- The stream is cancelled by somebody who holds it. -/
  | cancel (hasCancel : Bool)
  | cancelFromReader (reader : ℕ) (hasCancel : Bool)
  | cancelReturned
  | pullReturned
  | pullThrew (reason : Option (Failure Reason))
  | pullResolved
  | pullRejected (reason : Option (Failure Reason))

namespace RuntimeReadableStream

variable {Chunk Reason : Type} (stream : RuntimeReadableStream Chunk Reason)

def startReturned : Option (RuntimeReadableStream Chunk Reason) :=
  match stream.frames with
  | .start :: frames => some { stream with frames, startResult := .pending }
  | _ => none

def startThrew (reason : Option (Failure Reason)) : Option (RuntimeReadableStream Chunk Reason) :=
  match stream.frames with
  | .start :: frames => some ({ stream with frames }.controllerError reason)
  | _ => none

def startResolved : Option (RuntimeReadableStream Chunk Reason) :=
  if stream.frames = [] ∧ stream.startResult = .pending then
    some ({ stream with startResult := .settled, started := true }.callPullIfNeeded .none)
  else none

def startRejected (reason : Option (Failure Reason)) :
    Option (RuntimeReadableStream Chunk Reason) :=
  if stream.frames = [] ∧ stream.startResult = .pending then
    some ({ stream with startResult := .settled }.controllerError reason)
  else none

def pullReturned : Option (RuntimeReadableStream Chunk Reason) :=
  match stream.frames with
  | .pull next :: frames =>
    some ({ stream with frames, pullResults := stream.pullResults + 1 }.resume next)
  | _ => none

def pullThrew (reason : Option (Failure Reason)) : Option (RuntimeReadableStream Chunk Reason) :=
  match stream.frames with
  | .pull next :: frames =>
    some (({ stream with frames, pulling := false }.controllerError reason).resume next)
  | _ => none

def pullResolved : Option (RuntimeReadableStream Chunk Reason) :=
  if stream.frames = [] ∧ 0 < stream.pullResults then
    if stream.pullAgain then some ({ stream with
      pullResults := stream.pullResults - 1
      pulling := false
      pullAgain := false }.callPullIfNeeded .none)
    else some { stream with pullResults := stream.pullResults - 1, pulling := false }
  else none

def pullRejected (reason : Option (Failure Reason)) : Option (RuntimeReadableStream Chunk Reason) :=
  if stream.frames = [] ∧ 0 < stream.pullResults then
    some ({ stream with
      pullResults := stream.pullResults - 1
      pulling := false }.controllerError reason)
  else none

def cancelReturned : Option (RuntimeReadableStream Chunk Reason) :=
  match stream.frames with
  | .cancel :: frames => some { stream with frames }
  | _ => none

def getReader : RuntimeReadableStream Chunk Reason :=
  if stream.reader.isSome then stream
  else { stream with reader := some stream.readers, readers := stream.readers + 1 }

def releaseLock (reader : ℕ) : RuntimeReadableStream Chunk Reason :=
  if stream.reader ≠ some reader ∨ stream.readRequests ≠ [] then stream
  else { stream with reader := none }

/-- The stream after an operation of somebody who holds the stream, which nobody does before the
constructor returns. -/
def constructed (next : RuntimeReadableStream Chunk Reason) :
    Option (RuntimeReadableStream Chunk Reason) :=
  if stream.frames.any Frame.isStart then none else some next

/-- The stream after something has happened. -/
def step : ReadableEvent Chunk Reason → Option (RuntimeReadableStream Chunk Reason)
  | .startReturned => stream.startReturned
  | .startThrew reason => stream.startThrew reason
  | .startResolved => stream.startResolved
  | .startRejected reason => stream.startRejected reason
  | .enqueue chunk answer => some (stream.controllerEnqueue chunk answer)
  | .close => some stream.controllerClose
  | .error reason => some (stream.controllerError reason)
  | .getReader => stream.constructed stream.getReader
  | .read reader => stream.constructed
      (if stream.reader = some reader then stream.readFromReader else stream)
  | .releaseLock reader => stream.constructed (stream.releaseLock reader)
  | .cancel hasCancel => stream.constructed
      (if stream.reader.isSome then stream else stream.cancelInternal hasCancel)
  | .cancelFromReader reader hasCancel => stream.constructed
      (if stream.reader = some reader then stream.cancelInternal hasCancel else stream)
  | .cancelReturned => stream.cancelReturned
  | .pullReturned => stream.pullReturned
  | .pullThrew reason => stream.pullThrew reason
  | .pullResolved => stream.pullResolved
  | .pullRejected reason => stream.pullRejected reason

def machine (hasPull : Bool) (highWaterMark : ℚ) :
    Machine (RuntimeReadableStream Chunk Reason) (ReadableEvent Chunk Reason) where
  start := new hasPull highWaterMark
  step := step

end RuntimeReadableStream

end Holonomy.Streams
