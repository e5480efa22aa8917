import Holonomy.Foundation.Machine
import Holonomy.Network.Rules

/-!
# Bodies of responses

Every reader of a response has its own cursor in one list of chunks, which is filled from one native
stream and pruned behind the slowest reader. A pull that finds no chunk waits for the stream; when
the stream answered, all who waited look again, one by one.
-/

namespace Holonomy.Network

open Foundation

/-! ## Bodies of requests and responses

A body reads its source chunk by chunk, for whoever holds its lock, for its stream or for the call
that collects all of it.
-/

inductive Consumer where
  | caller
  | bytes
deriving DecidableEq

structure Pull where
  consumer : Consumer
  cancellationEpoch : ℕ
deriving DecidableEq

structure Chunk where
  number : ℕ
  bytes : List UInt8
deriving DecidableEq

/-- How the source settles a pull. -/
inductive Pulled where
  | value (bytes : List UInt8)
  | ended
  | error
deriving DecidableEq

/-- What `next` answers. -/
inductive Answer where
  | chunk (chunk : Chunk)
  | done
  | rejected
deriving DecidableEq

/-- The call of `bytes` at work. -/
structure BytesCall where
  maxBytes : ℕ
  chunks : List (List UInt8)
  total : ℕ
  arrived : Option Answer
deriving DecidableEq

/-- Bytes that a call of `bytes` resolved with. -/
structure Collected where
  maxBytes : ℕ
  joined : List UInt8
deriving DecidableEq

structure WebBodyController where
  hasSource : Bool
  consumed : Bool
  cancellationEpoch : ℕ
  done : Bool
  readerOwner : Option ℕ
  pulling : Bool
  terminalDelivered : Bool
  pulls : List Pull
  handing : List Chunk
  bytesCall : Option BytesCall
  owners : ℕ
  sourced : List (List UInt8)
  ended : Bool
  failed : Bool
  cancelled : Bool
  terminals : ℕ
  handed : List (Consumer × ℕ)
  /-- The numbers of the chunks that consumers got after the terminal callback. -/
  late : List ℕ
  resolved : List Collected
deriving DecidableEq

/-- What can happen. -/
inductive BodyEvent where
  | acquireReader
  | releaseReader (owner : ℕ)
  | next (owner : Option ℕ) (throws : Bool)
  | pulled (index : ℕ) (outcome : Pulled) (aborted : Bool)
  | received
  | cancel (owner : Option ℕ) (aborted : Bool)
  | cancelFromStream (aborted : Bool)
  | bytes (maxBytes : ℕ) (throws : Bool)
  /-- The call of `bytes` sees its answer; it can cancel the source, or call it again. -/
  | resumed (aborted throws : Bool)

namespace WebBodyController

/-- A body that nobody touched. -/
def start (hasSource : Bool) : WebBodyController where
  hasSource := hasSource
  consumed := false
  cancellationEpoch := 0
  done := false
  readerOwner := none
  pulling := false
  terminalDelivered := false
  pulls := []
  handing := []
  bytesCall := none
  owners := 0
  sourced := []
  ended := false
  failed := false
  cancelled := false
  terminals := 0
  handed := []
  late := []
  resolved := []

/-- The terminal callback runs, unless it did. -/
def finish (body : WebBodyController) : WebBodyController :=
  if body.terminalDelivered then body
  else { body with terminalDelivered := true, terminals := body.terminals + 1 }

def assertReader (body : WebBodyController) (owner : Option ℕ) (allowForced : Bool) : Bool :=
  (allowForced && owner.isNone) || body.readerOwner = owner

def answer (body : WebBodyController) : Consumer → Answer → WebBodyController
  | .caller, .chunk chunk => { body with handing := body.handing ++ [chunk] }
  | .caller, _ => body
  | .bytes, answer =>
    { body with bytesCall := body.bytesCall.map fun call => { call with arrived := some answer } }

def isPullCurrent (body : WebBodyController) (cancellationEpoch : ℕ) : Bool :=
  !body.done && body.cancellationEpoch == cancellationEpoch

def unpull (body : WebBodyController) : WebBodyController := { body with pulling := false }

def fail (body : WebBodyController) (consumer : Consumer) : WebBodyController :=
  ({ body.finish with failed := true }.answer consumer .rejected).unpull

/-- The body has no more chunks. -/
def finishDone (body : WebBodyController) : WebBodyController :=
  { body with done := true, ended := true }.finish

def deliver (body : WebBodyController) : Pulled → WebBodyController
  | .value bytes => { body with sourced := body.sourced ++ [bytes] }
  | _ => body

/-- What the source settled a pull with counts. -/
def accepts (body : WebBodyController) (pull : Pull) (outcome : Pulled) (aborted : Bool) : Bool :=
  outcome ≠ .error && !aborted && body.isPullCurrent pull.cancellationEpoch

def settle (body : WebBodyController) (pull : Pull) (outcome : Pulled) (aborted : Bool) :
    WebBodyController :=
  if !body.accepts pull outcome aborted then (body.deliver outcome).fail pull.consumer
  else
    match outcome with
    | .value bytes =>
      ((body.deliver outcome).answer pull.consumer (.chunk ⟨body.sourced.length, bytes⟩)).unpull
    | _ => (body.finishDone.answer pull.consumer .done).unpull

def next (body : WebBodyController) (consumer : Consumer) (owner : Option ℕ) (throws : Bool) :
    WebBodyController :=
  if !body.assertReader owner false then body.answer consumer .rejected
  else if body.done then body.answer consumer .done
  else if !body.hasSource then body.finishDone.answer consumer .done
  else if body.pulling then body.answer consumer .rejected
  else if throws then { body with consumed := true, pulling := true }.fail consumer
  else
    { body with
      consumed := true
      pulling := true
      pulls := body.pulls ++ [⟨consumer, body.cancellationEpoch⟩] }

def cancel (body : WebBodyController) (owner : Option ℕ) (aborted : Bool) : WebBodyController :=
  if !body.assertReader owner true then body
  else if body.done then body
  else if body.hasSource && aborted then { body.finish with cancelled := true }
  else
    { body with
      cancellationEpoch := body.cancellationEpoch + 1
      consumed := body.hasSource
      done := true
      cancelled := true }.finish

def cancelFromStream (body : WebBodyController) (aborted : Bool) : WebBodyController :=
  if body.readerOwner.isSome then body else body.cancel none aborted

def acquireReader (body : WebBodyController) : WebBodyController :=
  if body.readerOwner.isSome then body
  else { body with readerOwner := some body.owners, owners := body.owners + 1 }

def releaseReader (body : WebBodyController) (owner : ℕ) : WebBodyController :=
  if body.readerOwner ≠ some owner then body
  else if body.pulling then body
  else { body with readerOwner := none }

/-- A consumer gets a chunk. -/
def hand (body : WebBodyController) (consumer : Consumer) (number : ℕ) : WebBodyController :=
  { body with
    handed := body.handed ++ [(consumer, number)]
    late := if body.terminalDelivered then body.late ++ [number] else body.late }

def resolve (body : WebBodyController) (maxBytes : ℕ) (joined : List UInt8) : WebBodyController :=
  { body with bytesCall := none, resolved := body.resolved ++ [⟨maxBytes, joined⟩] }

def bytes (body : WebBodyController) (maxBytes : ℕ) (throws : Bool) : WebBodyController :=
  if body.consumed || body.readerOwner.isSome then body
  else if !body.hasSource then body.finishDone.resolve maxBytes []
  else { body with bytesCall := some ⟨maxBytes, [], 0, none⟩ }.next .bytes none throws

def collect (body : WebBodyController) (call : BytesCall) (chunk : Chunk) (aborted throws : Bool) :
    WebBodyController :=
  let taken := body.hand .bytes chunk.number
  let total := call.total + chunk.bytes.length
  if call.maxBytes < total then { taken with bytesCall := none }.cancel none aborted
  else
    { taken with
      bytesCall := some ⟨call.maxBytes, call.chunks ++ [chunk.bytes], total, none⟩ }.next
      .bytes none throws

def resume (body : WebBodyController) (call : BytesCall) (aborted throws : Bool) :
    Answer → WebBodyController
  | .chunk chunk => body.collect call chunk aborted throws
  | .done => body.resolve call.maxBytes call.chunks.flatten
  | .rejected => { body with bytesCall := none }

def arrival (body : WebBodyController) : Option Answer :=
  body.bytesCall.bind BytesCall.arrived

def step (body : WebBodyController) : BodyEvent → Option WebBodyController
  | .acquireReader => some body.acquireReader
  | .releaseReader owner => some (body.releaseReader owner)
  | .next owner throws => some (body.next .caller owner throws)
  | .pulled index outcome aborted =>
    if body.arrival.isSome then none
    else body.pulls[index]?.map fun pull =>
      { body with pulls := body.pulls.eraseIdx index }.settle pull outcome aborted
  | .received =>
    body.handing.head?.map fun chunk =>
      { body with handing := body.handing.tail }.hand .caller chunk.number
  | .cancel owner aborted => some (body.cancel owner aborted)
  | .cancelFromStream aborted => some (body.cancelFromStream aborted)
  | .bytes maxBytes throws => some (body.bytes maxBytes throws)
  | .resumed aborted throws =>
    body.bytesCall.bind fun call =>
      call.arrived.map fun answer => body.resume call aborted throws answer

end WebBodyController

def webBody (hasSource : Bool) : Machine WebBodyController BodyEvent where
  start := .start hasSource
  step := WebBodyController.step

/-- The bounds of a response. -/
structure ResponseLimits where
  maxChunkBytes : ℕ
  maxResponseBodyBytes : ℕ

/-- How the native stream settles a read. -/
inductive StreamResult where
  | data (value : JsonValue) (binary : Option (List (List UInt8)))
  | ended (value : Option JsonValue)
  | error

/-- The read at work: the stream has it, with the cancellations that came before, or it is over
and may have thrown. -/
inductive Filling where
  | reading (cancellationEpoch : ℕ)
  | settled (rejects : Bool)
deriving DecidableEq

structure Waiter where
  readerId : ℕ
  woken : Option Bool
deriving DecidableEq

def maxResponseReaders : ℕ := 128

structure SharedNativeResponseBody where
  baseCursor : ℕ
  cancellationEpoch : ℕ
  closed : Bool
  chunks : List Chunk
  done : Bool
  failure : Bool
  abortFailure : Bool
  filling : Option Filling
  nextReaderId : ℕ
  readers : List (ℕ × ℕ)
  streamOpened : Bool
  totalBytes : ℕ
  isCurrent : Bool
  waiting : List Waiter
  resourceClosed : Bool
  released : Bool
  accepted : List Chunk
  made : List (ℕ × ℕ)
  returned : List (ℕ × Chunk)
  endings : List ℕ
  ended : Bool
  /-- The number of chunks that were accepted before the stream broke. -/
  brokenAt : Option ℕ
  closings : ℕ
  releases : ℕ
deriving DecidableEq

/-- What can happen. -/
inductive ResponseEvent where
  | createReader
  | cloneReader (readerId : ℕ)
  | pullReader (readerId : ℕ) (throws : Bool)
  | settled (result : StreamResult)
  | filled
  | resumed (index : ℕ) (throws : Bool)
  | cancelReader (readerId : ℕ)
  | cancel
  | abort
  | dispose

def decodeNetworkValue (value : Option JsonValue) : Option JsonValue :=
  value.bind fun value =>
    match memberOf value (js "ok"), memberOf value (js "value") with
    | some (.boolean true), some content => some content
    | _, _ => none

def readRecord (value : JsonValue) : Option JsonValue :=
  match value with
  | .object _ => some value
  | _ => none

def dataOf (limits : ResponseLimits) (record : JsonValue) (binary : Option (List (List UInt8))) :
    Option (List UInt8) :=
  match memberOf record (js "kind"), binary with
  | some (.string kind), some [data] =>
    if kind = js "body" ∧ data.length ≤ limits.maxChunkBytes then some data else none
  | _, _ => none

namespace SharedNativeResponseBody

def start : SharedNativeResponseBody where
  baseCursor := 0
  cancellationEpoch := 0
  closed := false
  chunks := []
  done := false
  failure := false
  abortFailure := false
  filling := none
  nextReaderId := 1
  readers := []
  streamOpened := false
  totalBytes := 0
  isCurrent := true
  waiting := []
  resourceClosed := false
  released := false
  accepted := []
  made := []
  returned := []
  endings := []
  ended := false
  brokenAt := none
  closings := 0
  releases := 0

def closeResource (body : SharedNativeResponseBody) : SharedNativeResponseBody :=
  if body.resourceClosed then body
  else { body with resourceClosed := true, closings := body.closings + 1 }

/-- Release the lease, once. -/
def release (body : SharedNativeResponseBody) : SharedNativeResponseBody :=
  if body.released then body else { body with released := true, releases := body.releases + 1 }

def close (body : SharedNativeResponseBody) : SharedNativeResponseBody :=
  if body.closed then body else { body with closed := true }.closeResource.release

def cancel (body : SharedNativeResponseBody) : SharedNativeResponseBody :=
  if body.closed then body
  else
    { body with
      readers := if body.abortFailure then body.readers else []
      chunks := []
      cancellationEpoch := body.cancellationEpoch + 1 }.close

def cursorOf (body : SharedNativeResponseBody) (readerId : ℕ) : Option ℕ :=
  (body.readers.find? fun reader => reader.1 = readerId).map Prod.snd

/-- Forget the chunks that every reader got. -/
def pruneChunks (body : SharedNativeResponseBody) : SharedNativeResponseBody :=
  match (body.readers.map Prod.snd).min? with
  | none => { body with chunks := [] }
  | some minimum =>
    if minimum ≤ body.baseCursor then body
    else
      { body with
        chunks := body.chunks.drop (minimum - body.baseCursor)
        baseCursor := minimum }

def delete (body : SharedNativeResponseBody) (readerId : ℕ) : SharedNativeResponseBody :=
  { body with readers := body.readers.filter fun reader => reader.1 ≠ readerId }

def addReader (body : SharedNativeResponseBody) (cursor : ℕ) : SharedNativeResponseBody :=
  if maxResponseReaders ≤ body.readers.length then body
  else
    { body with
      nextReaderId := body.nextReaderId + 1
      readers := body.readers ++ [(body.nextReaderId, cursor)]
      made := body.made ++ [(body.nextReaderId, cursor)] }

def createReader (body : SharedNativeResponseBody) : SharedNativeResponseBody :=
  body.addReader body.baseCursor

/-- A reader that goes on where another one is. -/
def cloneReader (body : SharedNativeResponseBody) (readerId : ℕ) : SharedNativeResponseBody :=
  match body.cursorOf readerId with
  | none => body
  | some cursor => body.addReader cursor

/-- Nothing happened since a read began that makes its result void. -/
def isPullCurrent (body : SharedNativeResponseBody) (cancellationEpoch : ℕ) : Bool :=
  !body.closed && body.cancellationEpoch == cancellationEpoch && body.isCurrent

def readNext (body : SharedNativeResponseBody) (throws : Bool) : SharedNativeResponseBody :=
  if body.closed then { body with filling := some (.settled true) }
  else if !body.streamOpened && throws then { body with filling := some (.settled true) }
  else
    { body with streamOpened := true, filling := some (.reading body.cancellationEpoch) }

def fill (body : SharedNativeResponseBody) (readerId : ℕ) (throws : Bool) :
    SharedNativeResponseBody :=
  let reading := if body.filling.isNone then body.readNext throws else body
  { reading with waiting := reading.waiting ++ [⟨readerId, none⟩] }

def chunkAt (body : SharedNativeResponseBody) (cursor : ℕ) : Option Chunk :=
  if body.baseCursor ≤ cursor then body.chunks[cursor - body.baseCursor]? else none

def advance (body : SharedNativeResponseBody) (readerId : ℕ) (chunk : Chunk) :
    SharedNativeResponseBody :=
  { body with
    readers := body.readers.map fun reader =>
      if reader.1 = readerId then (reader.1, reader.2 + 1) else reader
    returned := body.returned ++ [(readerId, chunk)] }

/-- A reader leaves, as there is nothing more for it. -/
def leave (body : SharedNativeResponseBody) (readerId : ℕ) : SharedNativeResponseBody :=
  (body.delete readerId).pruneChunks

def pullReader (body : SharedNativeResponseBody) (readerId : ℕ) (throws : Bool) :
    SharedNativeResponseBody :=
  match body.cursorOf readerId with
  | none => body
  | some cursor =>
    if body.abortFailure then body
    else
      match body.chunkAt cursor with
      | some chunk => (body.advance readerId chunk).pruneChunks
      | none =>
        if body.failure then body.leave readerId
        else if body.done then
          { body.leave readerId with endings := body.endings ++ [readerId] }
        else body.fill readerId throws

/-- A reader is not needed any more. -/
def cancelReader (body : SharedNativeResponseBody) (readerId : ℕ) : SharedNativeResponseBody :=
  if (body.cursorOf readerId).isNone then body
  else
    let left := body.leave readerId
    if left.readers.isEmpty && !left.done && !left.failure then left.cancel else left

def abort (body : SharedNativeResponseBody) : SharedNativeResponseBody :=
  if body.closed || body.done || body.failure then body
  else { body with abortFailure := true, failure := true }.cancel

def dispose (body : SharedNativeResponseBody) : SharedNativeResponseBody :=
  let stopped := { body with isCurrent := false }
  if body.released then stopped else stopped.cancel.closeResource.release

def fail (body : SharedNativeResponseBody) : SharedNativeResponseBody :=
  if body.closed then body
  else { body with failure := true, cancellationEpoch := body.cancellationEpoch + 1 }.close

/-- Something arrives that is void, or the stream failed. -/
def late (body : SharedNativeResponseBody) : SharedNativeResponseBody :=
  { body.close with failure := true }

def accept (body : SharedNativeResponseBody) (data : List UInt8) : SharedNativeResponseBody :=
  { body with
    chunks := body.chunks ++ [⟨body.accepted.length, data⟩]
    accepted := body.accepted ++ [⟨body.accepted.length, data⟩] }

/-- A well formed data event arrives. -/
def receive (limits : ResponseLimits) (body : SharedNativeResponseBody) (cancellationEpoch : ℕ)
    (data : List UInt8) : SharedNativeResponseBody :=
  let counted := { body with totalBytes := body.totalBytes + data.length }
  if limits.maxResponseBodyBytes < counted.totalBytes then counted.fail
  else if !counted.isPullCurrent cancellationEpoch then counted.late
  else counted.accept data

def endRead (body : SharedNativeResponseBody) (value : Option JsonValue) :
    SharedNativeResponseBody :=
  if (decodeNetworkValue value).isSome then { body with done := true, ended := true }.close
  else { body with failure := true }.close

def takeData (limits : ResponseLimits) (body : SharedNativeResponseBody) (cancellationEpoch : ℕ)
    (value : JsonValue) (binary : Option (List (List UInt8))) : SharedNativeResponseBody × Bool :=
  match (decodeNetworkValue value).bind readRecord with
  | none => (body, true)
  | some record =>
    match dataOf limits record binary with
    | none => (body.fail, false)
    | some data => (receive limits body cancellationEpoch data, false)

def goOn (limits : ResponseLimits) (body : SharedNativeResponseBody) (cancellationEpoch : ℕ)
    (result : StreamResult) : SharedNativeResponseBody × Bool :=
  if !body.isPullCurrent cancellationEpoch then (body.late, false)
  else
    match result with
    | .error => (body.late, false)
    | .ended value => (body.endRead value, false)
    | .data value binary => takeData limits body cancellationEpoch value binary

def breaks (limits : ResponseLimits) (body : SharedNativeResponseBody) : StreamResult → Bool
  | .error => true
  | .ended value => (decodeNetworkValue value).isNone
  | .data value binary =>
    (((decodeNetworkValue value).bind readRecord).bind fun record =>
      dataOf limits record binary).all fun data =>
        limits.maxResponseBodyBytes < body.totalBytes + data.length

def markBroken (limits : ResponseLimits) (body : SharedNativeResponseBody)
    (result : StreamResult) : SharedNativeResponseBody :=
  if body.breaks limits result then
    { body with brokenAt := some (body.brokenAt.getD body.accepted.length) }
  else body

def settle (limits : ResponseLimits) (body : SharedNativeResponseBody) (cancellationEpoch : ℕ)
    (result : StreamResult) : SharedNativeResponseBody :=
  let gone := (body.markBroken limits result).goOn limits cancellationEpoch result
  { gone.1 with filling := some (.settled gone.2) }

/-- Those who wait for the read are woken. -/
def wake (body : SharedNativeResponseBody) (rejects : Bool) : SharedNativeResponseBody :=
  { body with
    filling := none
    waiting := body.waiting.map fun waiter =>
      if waiter.woken.isNone then { waiter with woken := some rejects } else waiter }

/-- The state after an event. -/
def step (limits : ResponseLimits) (body : SharedNativeResponseBody) :
    ResponseEvent → Option SharedNativeResponseBody
  | .createReader => some body.createReader
  | .cloneReader readerId => some (body.cloneReader readerId)
  | .pullReader readerId throws => some (body.pullReader readerId throws)
  | .settled result =>
    match body.filling with
    | some (.reading cancellationEpoch) => some (body.settle limits cancellationEpoch result)
    | _ => none
  | .filled =>
    match body.filling with
    | some (.settled rejects) => some (body.wake rejects)
    | _ => none
  | .resumed index throws =>
    body.waiting[index]?.bind fun waiter =>
      waiter.woken.map fun rejects =>
        let rest := { body with waiting := body.waiting.eraseIdx index }
        if rejects then rest else rest.pullReader waiter.readerId throws
  | .cancelReader readerId => some (body.cancelReader readerId)
  | .cancel => some body.cancel
  | .abort => some body.abort
  | .dispose => some body.dispose

end SharedNativeResponseBody

def responseBody (limits : ResponseLimits) : Machine SharedNativeResponseBody ResponseEvent where
  start := .start
  step := SharedNativeResponseBody.step limits

end Holonomy.Network
