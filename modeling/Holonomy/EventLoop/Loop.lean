import Holonomy.Foundation.Earliest
import Holonomy.Foundation.Text
import Holonomy.Foundation.Machine

/-!
# The event loop

Operations admit and cancel work and ask the host for a wakeup; turns run it. A callback runs
between two events, and the operations it calls come in between; so do those of the microtasks at
the end of a turn. The host's functions do not call the loop back.
-/

namespace Holonomy.EventLoop

open Foundation

/-! ## The queues of the event loop

The loop keeps next ticks, immediates, ready tasks and timers, and an index of the tasks that may
still run.
-/

/-- The kinds of ready tasks. -/
inductive ReadyKind where
  | macrotask
  | nativeCompletion
  deriving DecidableEq

/-- A task that is ready to run. -/
structure ReadyTask where
  ioCallback : Bool
  id : ℕ
  kind : ReadyKind
  nativeRequestId : Option Text
  readyAt : ℚ
  ref : Bool
  sequence : ℕ
  deriving DecidableEq

/-- A task of the check phase. -/
structure ImmediateTask where
  id : ℕ
  ref : Bool
  sequence : ℕ
  deriving DecidableEq

/-- A task that runs before all others. -/
structure NextTickTask where
  id : ℕ
  ref : Bool
  deriving DecidableEq

structure TimerRecord where
  dueAt : ℚ
  id : ℕ
  intervalMs : Option ℕ
  ref : Bool
  sequence : ℕ
  deriving DecidableEq

/-- A request outside the loop that will be completed. -/
structure NativeRequestRecord where
  requestId : Text
  ref : Bool
  deriving DecidableEq

inductive TaskQueue where
  | immediate
  | nextTick
  | ready
  deriving DecidableEq

/-- How a callback came to run. -/
inductive ExecutionKind where
  | nextTick
  | immediate
  /-- A ready task, and whether it ran as part of an I/O batch. -/
  | ready (readyAt : ℚ) (batch : Bool)
  | timer (interval : Bool)
  deriving DecidableEq

/-- A callback that was called. -/
structure Execution where
  id : ℕ
  kind : ExecutionKind
  /-- Its place in the order of admission to its queue. -/
  order : ℕ
  deriving DecidableEq

structure Queues where
  activeImmediateBatchCutoff : Option ℕ
  activeIoBatchCutoff : Option ℕ
  immediates : List ImmediateTask
  nativeRequests : List NativeRequestRecord
  nextTicks : List NextTickTask
  readyTasks : List ReadyTask
  tasksById : ℕ → Option TaskQueue
  timers : List TimerRecord
  nextId : ℕ
  nextSequence : ℕ
  executed : List Execution
  cancelled : List ℕ

inductive Selected where
  | immediate (task : ImmediateTask)
  | ready (task : ReadyTask) (batch : Bool)
  | timer (timer : TimerRecord)
  deriving DecidableEq

def Selected.execution : Selected → Execution
  | .immediate task => ⟨task.id, .immediate, task.sequence⟩
  | .ready task batch => ⟨task.id, .ready task.readyAt batch, task.sequence⟩
  | .timer record => ⟨record.id, .timer record.intervalMs.isSome, record.sequence⟩

def NextTickTask.execution (task : NextTickTask) : Execution := ⟨task.id, .nextTick, task.id⟩

def Selected.timerId : Selected → Option ℕ
  | .timer record => some record.id
  | _ => none

namespace Queues

def new : Queues where
  activeImmediateBatchCutoff := none
  activeIoBatchCutoff := none
  immediates := []
  nativeRequests := []
  nextTicks := []
  readyTasks := []
  tasksById _ := none
  timers := []
  nextId := 1
  nextSequence := 1
  executed := []
  cancelled := []

variable (queues : Queues)

/-- A task is still to run. -/
def has (id : ℕ) : Bool := (queues.tasksById id).isSome

def clearPendingWork : Queues :=
  { queues with
    activeImmediateBatchCutoff := none
    activeIoBatchCutoff := none
    immediates := []
    nativeRequests := []
    nextTicks := []
    readyTasks := []
    tasksById := fun _ => none
    timers := [] }

section Admission

def pushImmediate (ref : Bool) : Queues :=
  { queues with
    immediates := queues.immediates ++ [⟨queues.nextId, ref, queues.nextSequence⟩]
    tasksById := Function.update queues.tasksById queues.nextId (some .immediate)
    nextId := queues.nextId + 1
    nextSequence := queues.nextSequence + 1 }

def pushNextTick (ref : Bool) : Queues :=
  { queues with
    nextTicks := queues.nextTicks ++ [⟨queues.nextId, ref⟩]
    tasksById := Function.update queues.tasksById queues.nextId (some .nextTick)
    nextId := queues.nextId + 1 }

def pushReady (kind : ReadyKind) (ref : Bool) (readyAt : ℚ) (nativeRequestId : Option Text)
    (ioCallback : Bool) : Queues :=
  { queues with
    readyTasks := queues.readyTasks ++
      [⟨ioCallback, queues.nextId, kind, nativeRequestId, readyAt, ref, queues.nextSequence⟩]
    tasksById := Function.update queues.tasksById queues.nextId (some .ready)
    nextId := queues.nextId + 1
    nextSequence := queues.nextSequence + 1 }

def pushTimer (dueAt : ℚ) (intervalMs : Option ℕ) (ref : Bool) : Queues :=
  { queues with
    timers := queues.timers ++ [⟨dueAt, queues.nextId, intervalMs, ref, queues.nextSequence⟩]
    nextId := queues.nextId + 1
    nextSequence := queues.nextSequence + 1 }

end Admission

section Removal

/-- Take an immediate out of its queue. -/
def dropImmediate (id : ℕ) : Queues :=
  { queues with
    tasksById := Function.update queues.tasksById id none
    immediates := queues.immediates.eraseP fun task => task.id = id }

/-- Take a ready task out of its queue. -/
def dropReady (id : ℕ) : Queues :=
  { queues with
    tasksById := Function.update queues.tasksById id none
    readyTasks := queues.readyTasks.eraseP fun task => task.id = id }

/-- Take a next tick out of its queue. -/
def dropNextTick (id : ℕ) : Queues :=
  { queues with
    tasksById := Function.update queues.tasksById id none
    nextTicks := queues.nextTicks.eraseP fun task => task.id = id }

/-- Take a timer out. -/
def dropTimer (id : ℕ) : Queues :=
  { queues with timers := queues.timers.eraseP fun timer => timer.id = id }

def cancel (ids : List ℕ) : Queues := { queues with cancelled := queues.cancelled ++ ids }

def cancelTask (id : ℕ) : TaskQueue → Queues
  | .immediate => (queues.dropImmediate id).cancel [id]
  | .ready => (queues.dropReady id).cancel [id]
  | .nextTick => (queues.dropNextTick id).cancel [id]

def clearTimer (id : ℕ) : Queues := (queues.dropTimer id).cancel [id]

def completes (requestId : Text) (task : ReadyTask) : Bool :=
  task.kind = .nativeCompletion ∧ task.nativeRequestId = some requestId ∧ queues.has task.id

def completions (requestId : Text) : List ReadyTask :=
  queues.readyTasks.filter fun task => queues.completes requestId task

def cancelNativeRequest (requestId : Text) : Queues :=
  { queues with
    nativeRequests := queues.nativeRequests.eraseP fun request => request.requestId = requestId
    readyTasks := queues.readyTasks.filter fun task => !queues.completes requestId task
    tasksById := fun id => if id ∈ (queues.completions requestId).map ReadyTask.id then none
      else queues.tasksById id }.cancel ((queues.completions requestId).map ReadyTask.id)

end Removal

section Changes

/-- Change whether a timer keeps the loop alive. -/
def setTimerRef (id : ℕ) (ref : Bool) : Queues :=
  { queues with timers := queues.timers.map fun timer =>
      if timer.id = id then { timer with ref } else timer }

/-- Change whether an immediate keeps the loop alive. -/
def setImmediateRef (id : ℕ) (ref : Bool) : Queues :=
  { queues with immediates := queues.immediates.map fun task =>
      if task.id = id then { task with ref } else task }

def setNativeRequestRef (requestId : Text) (ref : Bool) : Queues :=
  { queues with nativeRequests := queues.nativeRequests.map fun request =>
      if request.requestId = requestId then { request with ref } else request }

def advanced (timer : TimerRecord) (now : ℚ) : TimerRecord :=
  match timer.intervalMs with
  | none => timer
  | some interval =>
    if now < timer.dueAt then timer
    else
      let intervalsToSkip : ℤ := (max 0 (now - timer.dueAt) / (interval : ℚ)).floor
      { timer with dueAt := timer.dueAt + ((intervalsToSkip + 1 : ℤ) : ℚ) * interval }

/-- Advance a timer, unless it was taken out. -/
def advanceIntervalDeadline (id : ℕ) (now : ℚ) : Queues :=
  { queues with timers := queues.timers.map fun timer =>
      if timer.id = id then advanced timer now else timer }

end Changes

section Selection

/-- Some next tick may run. -/
def hasRunnableNextTick : Bool := queues.nextTicks.any fun task => queues.has task.id

def takeNextTick : Option NextTickTask × Queues :=
  match queues.nextTicks.dropWhile fun task => !queues.has task.id with
  | [] => (none, { queues with nextTicks := [] })
  | task :: rest => (some task, { queues with
        nextTicks := rest
        tasksById := Function.update queues.tasksById task.id none })

def readyKey (task : ReadyTask) : ℚ ×ₗ ℕ := toLex (task.readyAt, task.sequence)

/-- What decides between timers. -/
def dueKey (timer : TimerRecord) : ℚ ×ₗ ℕ := toLex (timer.dueAt, timer.sequence)

def below (beforeSequence : Option ℕ) (sequence : ℕ) : Bool :=
  beforeSequence.all fun limit => sequence < limit

def firstReady (beforeSequence : Option ℕ) : Option ReadyTask :=
  earliest readyKey (fun task => queues.has task.id && below beforeSequence task.sequence)
    queues.readyTasks

def firstDue (now : ℚ) (beforeSequence : Option ℕ) : Option TimerRecord :=
  earliest dueKey (fun timer => decide (timer.dueAt ≤ now) && below beforeSequence timer.sequence)
    queues.timers

def fire (timer : TimerRecord) : Queues :=
  if timer.intervalMs = none then queues.dropTimer timer.id else queues

def takeReady (task : ReadyTask) : Queues :=
  if task.ioCallback then
    { queues.dropReady task.id with activeIoBatchCutoff := some (queues.nextSequence - 1) }
  else queues.dropReady task.id

def takeOrdinaryReadyTask (now : ℚ) (beforeSequence : Option ℕ) : Option (Selected × Queues) :=
  match queues.firstReady beforeSequence, queues.firstDue now beforeSequence with
  | some task, some timer =>
    if readyKey task < dueKey timer then some (.ready task false, queues.takeReady task)
    else some (.timer timer, queues.fire timer)
  | some task, none => some (.ready task false, queues.takeReady task)
  | none, some timer => some (.timer timer, queues.fire timer)
  | none, none => none

def beginImmediates : Queues :=
  { queues with activeImmediateBatchCutoff :=
      queues.immediates.getLast?.map ImmediateTask.sequence }

def takeUnbatched (now : ℚ) : Option (Selected × Queues) :=
  match queues.immediates with
  | [] => queues.takeOrdinaryReadyTask now none
  | oldest :: _ =>
    match queues.takeOrdinaryReadyTask now (some oldest.sequence) with
    | some taken => some taken
    | none => some (.immediate oldest, queues.beginImmediates.dropImmediate oldest.id)

def takeAfterImmediates (now : ℚ) : Option (Selected × Queues) :=
  match queues.activeIoBatchCutoff with
  | none => queues.takeUnbatched now
  | some cutoff =>
    match queues.readyTasks.find? fun task =>
        task.ioCallback && decide (task.sequence ≤ cutoff) && queues.has task.id with
    | some task => some (.ready task true, queues.dropReady task.id)
    | none =>
      let ended := { queues with activeIoBatchCutoff := none }
      match queues.immediates with
      | [] => ended.takeUnbatched now
      | first :: _ => some (.immediate first, ended.beginImmediates.dropImmediate first.id)

def selectTask (now : ℚ) : Option (Selected × Queues) :=
  match queues.activeImmediateBatchCutoff with
  | none => queues.takeAfterImmediates now
  | some cutoff =>
    match queues.immediates.find? fun task => task.sequence ≤ cutoff with
    | some next => some (.immediate next, queues.dropImmediate next.id)
    | none => { queues with activeImmediateBatchCutoff := none }.takeAfterImmediates now

/-- Take what a turn is to run. A search that finds nothing has ended both batches. -/
def takeReadyTask (now : ℚ) : Option Selected × Queues :=
  match queues.selectTask now with
  | some (selected, rest) => (some selected, rest)
  | none => (none, { queues with
        activeImmediateBatchCutoff := none
        activeIoBatchCutoff := none })

/-- A callback is called. -/
def execute (execution : Execution) : Queues :=
  { queues with executed := queues.executed ++ [execution] }

end Selection

end Queues

/-- Options that passed their checks. -/
structure ResolvedOptions where
  maxCallbacksPerTurn : ℕ
  maxTimerDelayMs : ℕ
  minimumIntervalMs : ℕ
  callbacksPositive : 0 < maxCallbacksPerTurn
  intervalPositive : 0 < minimumIntervalMs
  intervalFits : minimumIntervalMs ≤ maxTimerDelayMs

/-- The options of a loop that is given none. -/
def defaultOptions : ResolvedOptions where
  maxCallbacksPerTurn := 1024
  maxTimerDelayMs := 2147483647
  minimumIntervalMs := 1
  callbacksPositive := by decide
  intervalPositive := by decide
  intervalFits := by decide

/-- The phase a wakeup is for. -/
inductive EventLoopWakeupPhase where
  | nextTick
  | eventLoop
  deriving DecidableEq

/-- Where the loop stands. -/
inductive Turn where
  | outside
  | callback (timer : Option ℕ) (ticking : Bool) (callbacks : ℕ)
  | checkpoint (timer : Option ℕ)
  deriving DecidableEq

structure EventLoopSnapshot where
  hasPendingWork : Bool
  isAlive : Bool
  nextWakeupAt : Option ℚ
  deriving DecidableEq

structure RuntimeEventLoop where
  queues : Queues
  disposed : Bool
  lastNow : Option ℚ
  scheduledWakeupAt : Option (Option ℚ)
  scheduledWakeupPhase : Option (Option EventLoopWakeupPhase)
  turn : Turn
  /-- What the host was asked for last since the last turn began. -/
  requested : Option (Option ℚ × Option EventLoopWakeupPhase)

/-- What happens at the loop. -/
inductive Action where
  | getCurrentTime
  | getSnapshot
  | enqueueMacrotask (ref : Bool)
  | enqueueIoCallback (ref : Bool)
  | enqueueImmediate (ref : Bool)
  | enqueueNextTick (ref : Bool)
  | cancelTask (id : ℕ)
  | setTimer (delayMs : Option ℚ) (intervalMs : Option (Option ℚ)) (ref : Bool)
  | clearTimer (id : ℕ)
  | setTimerRef (id : ℕ) (ref : Bool)
  | setImmediateRef (id : ℕ) (ref : Bool)
  | registerNativeRequest (requestId : Text) (ref : Bool)
  | completeNativeRequest (requestId : Text) (ref : Option Bool)
  | cancelNativeRequest (requestId : Text)
  | setNativeRequestRef (requestId : Text) (ref : Bool)
  | shutdown
  | runTurn
  | runNextTickCheckpoint
  | callbackReturns
  | callbackThrows
  | checkpointReturns
  | checkpointThrows

/-- What happens, what the clock shows when it is read first and next, and whether the host throws
when it is asked for a wakeup. A reading that is not finite is `none`. -/
structure Event where
  action : Action
  now : Option ℚ
  later : Option ℚ
  wakeupThrows : Bool

namespace RuntimeEventLoop

def new : RuntimeEventLoop where
  queues := .new
  disposed := false
  lastNow := none
  scheduledWakeupAt := none
  scheduledWakeupPhase := none
  turn := .outside
  requested := none

variable (loop : RuntimeEventLoop)

def put (queues : Queues) : RuntimeEventLoop := { loop with queues }

section Wakeups

def createSnapshot (now : ℚ) : EventLoopSnapshot :=
  let immediates := loop.queues.immediates.filter fun task => loop.queues.has task.id
  let readyTasks := loop.queues.readyTasks.filter fun task => loop.queues.has task.id
  let nextTicks := loop.queues.nextTicks.filter fun task => loop.queues.has task.id
  let isAlive := immediates.any ImmediateTask.ref || nextTicks.any NextTickTask.ref ||
    readyTasks.any ReadyTask.ref || loop.queues.timers.any TimerRecord.ref ||
    loop.queues.nativeRequests.any NativeRequestRecord.ref
  let queued := !immediates.isEmpty || !nextTicks.isEmpty || !readyTasks.isEmpty
  { hasPendingWork := queued || !loop.queues.timers.isEmpty ||
      !loop.queues.nativeRequests.isEmpty
    isAlive
    nextWakeupAt :=
      if isAlive then
        loop.queues.timers.foldl (fun wakeup timer =>
          if wakeup.all fun at_ => timer.dueAt < at_ then some (max now timer.dueAt) else wakeup)
          (if queued then some now else none)
      else none }

def wakeupPhase (deadlineMs : Option ℚ) : Option EventLoopWakeupPhase :=
  deadlineMs.map fun _ => if loop.queues.hasRunnableNextTick then .nextTick else .eventLoop

/-- Ask the host for a wakeup, unless it was asked for the same; nothing comes back if it throws. -/
def requestWakeup (deadlineMs : Option ℚ) (throws : Bool) : Option RuntimeEventLoop :=
  if loop.scheduledWakeupAt = some deadlineMs ∧
      loop.scheduledWakeupPhase = some (loop.wakeupPhase deadlineMs) then some loop
  else if throws then none
  else
    some { loop with
      scheduledWakeupAt := some deadlineMs
      scheduledWakeupPhase := some (loop.wakeupPhase deadlineMs)
      requested := some (deadlineMs, loop.wakeupPhase deadlineMs) }

/-- Empty the loop for good. Whether the host throws makes no difference. -/
def finalizeTermination : RuntimeEventLoop :=
  if loop.disposed then loop
  else
    { loop with
      queues := loop.queues.clearPendingWork
      disposed := true
      scheduledWakeupAt := some none
      scheduledWakeupPhase := some none
      requested := some (none, none) }

def reconcileWakeupAt (now : ℚ) (throws : Bool) : RuntimeEventLoop :=
  match loop.requestWakeup (loop.createSnapshot now).nextWakeupAt throws with
  | some asked => asked
  | none => loop.finalizeTermination

/-- Read the clock, which must not go back, and go on; or fail. -/
def withNow (reading : Option ℚ) (next : RuntimeEventLoop → ℚ → RuntimeEventLoop) :
    RuntimeEventLoop :=
  match reading.filter fun now => 0 ≤ now ∧ loop.lastNow.all fun last => last ≤ now with
  | some now => next { loop with lastNow := some now } now
  | none => loop.finalizeTermination

def reconcileWakeupIfActive (event : Event) : RuntimeEventLoop :=
  if loop.disposed then loop
  else loop.withNow event.now fun loop now => loop.reconcileWakeupAt now event.wakeupThrows

end Wakeups

section Operations

def admitting (event : Event) (change : Queues → ℚ → Queues) : RuntimeEventLoop :=
  if loop.disposed then loop
  else loop.withNow event.now fun loop now =>
    (loop.put (change loop.queues now)).reconcileWakeupAt now event.wakeupThrows

/-- A delay in whole milliseconds within the bounds, unless it is not finite or negative. -/
def normalizeDelay (options : ResolvedOptions) (value : Option ℚ) (allowZero : Bool) : Option ℕ :=
  (value.filter fun delay => 0 ≤ delay).map fun delay =>
    min options.maxTimerDelayMs
      (max (if allowZero then 0 else options.minimumIntervalMs) delay.ceil.toNat)

/-- Enter a timer. The clock is read before the delays are looked at. -/
def setTimer (options : ResolvedOptions) (event : Event) (delayMs : Option ℚ)
    (intervalMs : Option (Option ℚ)) (ref : Bool) : RuntimeEventLoop :=
  if loop.disposed then loop
  else loop.withNow event.now fun loop now =>
    match normalizeDelay options delayMs true,
        intervalMs.map fun interval => normalizeDelay options interval false with
    | none, _ => loop
    | some _, some none => loop
    | some delay, none =>
      (loop.put (loop.queues.pushTimer (now + delay) none ref)).reconcileWakeupAt now
        event.wakeupThrows
    | some delay, some (some interval) =>
      (loop.put (loop.queues.pushTimer (now + delay) (some interval) ref)).reconcileWakeupAt now
        event.wakeupThrows

def cancelTask (event : Event) (id : ℕ) : RuntimeEventLoop :=
  match loop.queues.tasksById id with
  | none => loop
  | some queue => (loop.put (loop.queues.cancelTask id queue)).reconcileWakeupIfActive event

def clearTimer (event : Event) (id : ℕ) : RuntimeEventLoop :=
  if loop.queues.timers.any fun timer => timer.id = id then
    (loop.put (loop.queues.clearTimer id)).reconcileWakeupIfActive event
  else loop

def setTimerRef (event : Event) (id : ℕ) (ref : Bool) : RuntimeEventLoop :=
  if loop.queues.timers.any fun timer => timer.id = id ∧ timer.ref ≠ ref then
    (loop.put (loop.queues.setTimerRef id ref)).reconcileWakeupIfActive event
  else loop

def setImmediateRef (event : Event) (id : ℕ) (ref : Bool) : RuntimeEventLoop :=
  if loop.queues.tasksById id = some .immediate ∧
      (loop.queues.immediates.any fun task => task.id = id ∧ task.ref ≠ ref) then
    (loop.put (loop.queues.setImmediateRef id ref)).reconcileWakeupIfActive event
  else loop

def nativeRequest (requestId : Text) : Option NativeRequestRecord :=
  loop.queues.nativeRequests.find? fun request => request.requestId = requestId

def registerNativeRequest (event : Event) (requestId : Text) (ref : Bool) : RuntimeEventLoop :=
  if requestId = [] ∨ (loop.nativeRequest requestId).isSome then loop
  else loop.admitting event fun queues _ =>
    { queues with nativeRequests := queues.nativeRequests ++ [⟨requestId, ref⟩] }

def completeNativeRequest (event : Event) (requestId : Text) (ref : Option Bool) :
    RuntimeEventLoop :=
  if requestId = [] then loop
  else
    match loop.nativeRequest requestId with
    | none => loop
    | some pending => loop.admitting event fun queues now =>
      { queues with nativeRequests := queues.nativeRequests.eraseP fun request =>
          request.requestId = requestId }.pushReady .nativeCompletion (ref.getD pending.ref) now
        (some requestId) false

def cancelNativeRequest (event : Event) (requestId : Text) : RuntimeEventLoop :=
  if (loop.nativeRequest requestId).isSome ∨ loop.queues.completions requestId ≠ [] then
    (loop.put (loop.queues.cancelNativeRequest requestId)).reconcileWakeupIfActive event
  else loop

def setNativeRequestRef (event : Event) (requestId : Text) (ref : Bool) : RuntimeEventLoop :=
  if (loop.nativeRequest requestId).any fun request => request.ref ≠ ref then
    (loop.put (loop.queues.setNativeRequestRef requestId ref)).reconcileWakeupIfActive event
  else loop

end Operations

section Turns

variable (options : ResolvedOptions)

def leave : RuntimeEventLoop := { loop with turn := .outside }

def executeCallback (execution : Execution) (timer : Option ℕ) (ticking : Bool) (callbacks : ℕ) :
    RuntimeEventLoop :=
  if options.maxCallbacksPerTurn ≤ callbacks then loop.finalizeTermination.leave
  else
    { loop with
      queues := loop.queues.execute execution
      turn := .callback timer ticking (callbacks + 1) }

/-- Call the next tick that comes first, or go on to the microtasks. -/
def drainNextTicks (timer : Option ℕ) (callbacks : ℕ) : RuntimeEventLoop :=
  match loop.queues.takeNextTick with
  | (some task, queues) =>
    (loop.put queues).executeCallback options task.execution timer true callbacks
  | (none, queues) => { loop with queues, turn := .checkpoint timer }

def finishTurn (now : ℚ) (throws : Bool) : RuntimeEventLoop :=
  (loop.reconcileWakeupAt now throws).leave

def runActiveTurn (event : Event) (onlyNextTicks : Bool) : RuntimeEventLoop :=
  loop.withNow event.now fun loop now =>
    if onlyNextTicks ∧ loop.queues.hasRunnableNextTick = false then loop
    else
      let loop := { loop with
        scheduledWakeupAt := none
        scheduledWakeupPhase := none
        requested := none }
      if loop.queues.hasRunnableNextTick then loop.drainNextTicks options none 0
      else
        match loop.queues.takeReadyTask now with
        | (some selected, queues) =>
          (loop.put queues).executeCallback options selected.execution selected.timerId false 0
        | (none, queues) => (loop.put queues).withNow event.later fun loop finishedAt =>
            loop.finishTurn finishedAt event.wakeupThrows

def advanceTimer (timer : Option ℕ) (now : ℚ) : RuntimeEventLoop :=
  match timer with
  | none => loop
  | some id => loop.put (loop.queues.advanceIntervalDeadline id now)

def afterSelected (event : Event) (timer : Option ℕ) (callbacks : ℕ) : RuntimeEventLoop :=
  match timer with
  | none => loop.drainNextTicks options none callbacks
  | some id => loop.leave.withNow event.now fun loop now =>
      (loop.advanceTimer (some id) now).drainNextTicks options timer callbacks

/-- The microtasks are done. -/
def afterCheckpoint (event : Event) (timer : Option ℕ) : RuntimeEventLoop :=
  loop.leave.withNow event.now fun loop finishedAt =>
    (loop.advanceTimer timer finishedAt).finishTurn finishedAt event.wakeupThrows

end Turns

def step (options : ResolvedOptions) (event : Event) : Option RuntimeEventLoop :=
  match event.action with
  | .getCurrentTime => some (if loop.disposed then loop else loop.withNow event.now
      fun loop _ => loop)
  | .getSnapshot => some (if loop.disposed then loop else loop.withNow event.now fun loop _ => loop)
  | .enqueueMacrotask ref => some (loop.admitting event fun queues now =>
      queues.pushReady .macrotask ref now none false)
  | .enqueueIoCallback ref => some (loop.admitting event fun queues now =>
      queues.pushReady .macrotask ref now none true)
  | .enqueueImmediate ref => some (loop.admitting event fun queues _ => queues.pushImmediate ref)
  | .enqueueNextTick ref => some (loop.admitting event fun queues _ => queues.pushNextTick ref)
  | .cancelTask id => some (loop.cancelTask event id)
  | .setTimer delayMs intervalMs ref => some (loop.setTimer options event delayMs intervalMs ref)
  | .clearTimer id => some (loop.clearTimer event id)
  | .setTimerRef id ref => some (loop.setTimerRef event id ref)
  | .setImmediateRef id ref => some (loop.setImmediateRef event id ref)
  | .registerNativeRequest requestId ref => some (loop.registerNativeRequest event requestId ref)
  | .completeNativeRequest requestId ref => some (loop.completeNativeRequest event requestId ref)
  | .cancelNativeRequest requestId => some (loop.cancelNativeRequest event requestId)
  | .setNativeRequestRef requestId ref => some (loop.setNativeRequestRef event requestId ref)
  | .shutdown => some loop.finalizeTermination
  | .runTurn =>
    some (if loop.disposed ∨ loop.turn ≠ .outside then loop
      else loop.runActiveTurn options event false)
  | .runNextTickCheckpoint =>
    some (if loop.disposed ∨ loop.turn ≠ .outside then loop
      else loop.runActiveTurn options event true)
  | .callbackReturns =>
    match loop.turn with
    | .callback timer ticking callbacks =>
      some (if loop.disposed then loop.leave
        else if ticking then loop.drainNextTicks options timer callbacks
        else loop.afterSelected options event timer callbacks)
    | _ => none
  | .callbackThrows =>
    match loop.turn with
    | .callback _ _ _ => some loop.finalizeTermination.leave
    | _ => none
  | .checkpointReturns =>
    match loop.turn with
    | .checkpoint timer =>
      some (if loop.disposed then loop.leave else loop.afterCheckpoint event timer)
    | _ => none
  | .checkpointThrows =>
    match loop.turn with
    | .checkpoint _ => some loop.finalizeTermination.leave
    | _ => none

end RuntimeEventLoop

def eventLoopMachine (options : ResolvedOptions) : Machine RuntimeEventLoop Event where
  start := .new
  step loop event := loop.step options event

end Holonomy.EventLoop
