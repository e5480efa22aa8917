import Holonomy.Foundation.Machine

/-!
# Observer subscriptions

A subscription queues the events it accepts and hands them to its observer one at a time. When the
queue is full an event is dropped: the oldest optional one, else the oldest that is not the
termination of the runtime, else the new one.
-/

namespace Holonomy.Runtime

open Foundation

inductive RuntimeObserverSelectableEventNameV1 where
  | gcCompleted | memoryPressure | promiseRejected | runtimeException | runtimeTerminated
  | scriptCompiled | scriptExecutionFinished | scriptExecutionStarted
  deriving DecidableEq

/-- How far a platform supports an event. -/
inductive SupportLevel where
  | optional | required
  deriving DecidableEq

/-- A published event, with its number. -/
structure RuntimeObserverEventV1 where
  event : RuntimeObserverSelectableEventNameV1
  sequence : ℕ
  deriving DecidableEq

structure DroppedRuntimeObserverEventsV1 where
  dropped : ℕ
  droppedByEvent : RuntimeObserverSelectableEventNameV1 → ℕ
  firstDroppedSequence : ℕ
  lastDroppedSequence : ℕ

/-- An overflow event. -/
structure ObserverOverflowV1 where
  sequence : ℕ
  payload : DroppedRuntimeObserverEventsV1

inductive Delivery where
  | event (event : RuntimeObserverEventV1)
  | overflow (event : ObserverOverflowV1) (accounted : List RuntimeObserverEventV1)

/-- What a subscription tells the host. -/
inductive RuntimeObserverDiagnosticV1 where
  | callbackFailed
  | callbackTimeout
  | eventDropped (event : RuntimeObserverSelectableEventNameV1)
  deriving DecidableEq

/-- How a callback ends for the subscription. -/
inductive CallbackOutcome where
  | disposed | failed | settled | timeout
  deriving DecidableEq

/-- What a subscription was admitted with. -/
structure ObserverAdmission where
  maxQueuedEvents : ℕ
  events : List RuntimeObserverSelectableEventNameV1
  support : RuntimeObserverSelectableEventNameV1 → Option SupportLevel

structure RuntimeObserverSubscriptionV1 where
  active : Bool
  dropped : Option DroppedRuntimeObserverEventsV1
  inflight : Bool
  overflow : Option ObserverOverflowV1
  queue : List RuntimeObserverEventV1
  running : Bool
  scheduled : Bool
  sequence : ℕ
  diagnostics : List RuntimeObserverDiagnosticV1
  enqueued : List RuntimeObserverEventV1
  delivered : List Delivery
  /-- The dropped events that no delivered overflow event stands for. -/
  lost : List RuntimeObserverEventV1

/-- The number of what was handed over. -/
def Delivery.sequence : Delivery → ℕ
  | .event item => item.sequence
  | .overflow item _ => item.sequence

/-- The enqueued events that something handed over stands for. -/
def Delivery.events : Delivery → List RuntimeObserverEventV1
  | .event item => [item]
  | .overflow _ accounted => accounted

namespace RuntimeObserverSubscriptionV1

/-- A new subscription of a registry that has given out some numbers. -/
def new (sequence : ℕ) : RuntimeObserverSubscriptionV1 where
  active := true
  dropped := none
  inflight := false
  overflow := none
  queue := []
  running := false
  scheduled := false
  sequence := sequence
  diagnostics := []
  enqueued := []
  delivered := []
  lost := []

/-- Give the drain a turn, unless it has one. -/
def schedule (subscription : RuntimeObserverSubscriptionV1) : RuntimeObserverSubscriptionV1 :=
  if subscription.running || !subscription.active then subscription
  else { subscription with running := true, scheduled := true }

def recordDrop (subscription : RuntimeObserverSubscriptionV1) (event : RuntimeObserverEventV1) :
    RuntimeObserverSubscriptionV1 :=
  match subscription.dropped with
  | none =>
    let dropped : DroppedRuntimeObserverEventsV1 :=
      ⟨1, Function.update (fun _ => 0) event.event 1, event.sequence, event.sequence⟩
    { subscription with
      dropped := some dropped
      overflow := some ⟨subscription.sequence + 1, dropped⟩
      sequence := subscription.sequence + 1
      diagnostics := subscription.diagnostics ++ [.eventDropped event.event]
      lost := subscription.lost ++ [event] }
  | some previous =>
    let dropped : DroppedRuntimeObserverEventsV1 :=
      ⟨previous.dropped + 1, Function.update previous.droppedByEvent event.event
          (previous.droppedByEvent event.event + 1),
        min previous.firstDroppedSequence event.sequence,
        max previous.lastDroppedSequence event.sequence⟩
    { subscription with
      dropped := some dropped
      overflow := subscription.overflow.map fun overflow => { overflow with payload := dropped }
      diagnostics := subscription.diagnostics ++ [.eventDropped event.event]
      lost := subscription.lost ++ [event] }

/-- The place of the queued event to drop. -/
def evicted (admission : ObserverAdmission) (queue : List RuntimeObserverEventV1) : Option ℕ :=
  (queue.findIdx? fun item => admission.support item.event = some .optional) <|>
    queue.findIdx? fun item => item.event ≠ .runtimeTerminated

def enqueue (admission : ObserverAdmission) (subscription : RuntimeObserverSubscriptionV1)
    (event : RuntimeObserverEventV1) : RuntimeObserverSubscriptionV1 :=
  if !subscription.active then subscription
  else
    let subscription := { subscription with enqueued := subscription.enqueued ++ [event] }
    let occupied := subscription.queue.length + if subscription.inflight then 1 else 0
    if occupied ≥ admission.maxQueuedEvents then
      match (evicted admission subscription.queue).bind fun index =>
          subscription.queue[index]?.map fun item => (index, item) with
      | some (index, item) =>
        let left := recordDrop { subscription with queue := subscription.queue.eraseIdx index } item
        schedule { left with queue := left.queue ++ [event] }
      | none => schedule (recordDrop subscription event)
    else schedule { subscription with queue := subscription.queue ++ [event] }

def overflowDue (overflow : ObserverOverflowV1) : List RuntimeObserverEventV1 → Bool
  | [] => true
  | queued :: _ => overflow.sequence < queued.sequence

def drainQueue (subscription : RuntimeObserverSubscriptionV1) : RuntimeObserverSubscriptionV1 :=
  match subscription.queue with
  | event :: queue =>
    { subscription with
      queue := queue
      inflight := true
      delivered := subscription.delivered ++ [.event event] }
  | [] =>
    let ended := { subscription with inflight := false, running := false }
    if ended.active && ended.overflow.isSome then schedule ended else ended

def drainTurn (subscription : RuntimeObserverSubscriptionV1) : RuntimeObserverSubscriptionV1 :=
  if !subscription.active then { subscription with inflight := false, running := false }
  else
    match subscription.overflow with
    | some overflow =>
      if overflowDue overflow subscription.queue then
        { subscription with
          overflow := none
          dropped := none
          inflight := true
          delivered := subscription.delivered ++ [.overflow overflow subscription.lost]
          lost := [] }
      else drainQueue subscription
    | none => drainQueue subscription

/-- Forget what is queued and stop. -/
def dispose (subscription : RuntimeObserverSubscriptionV1) : RuntimeObserverSubscriptionV1 :=
  if !subscription.active then subscription
  else { subscription with active := false, queue := [], dropped := none, overflow := none }

/-- What the end of a callback is reported as. -/
def outcomeDiagnostics (subscription : RuntimeObserverSubscriptionV1) :
    CallbackOutcome → List RuntimeObserverDiagnosticV1
  | .failed => if subscription.active then [.callbackFailed] else []
  | .timeout => if subscription.active then [.callbackTimeout] else []
  | .disposed | .settled => []

end RuntimeObserverSubscriptionV1

/-- What happens around a subscription. -/
inductive ObserverStep where
  | publish (event : RuntimeObserverSelectableEventNameV1)
  /-- The registry numbers events that are not for this subscription. -/
  | elsewhere (count : ℕ)
  | microtask
  /-- The callback that was handed something ends, or its time is up. -/
  | settle (outcome : CallbackOutcome)
  | dispose
  deriving DecidableEq

open RuntimeObserverSubscriptionV1 in
def observer (admission : ObserverAdmission) (sequence : ℕ) :
    Machine RuntimeObserverSubscriptionV1 ObserverStep where
  start := .new sequence
  step subscription
    | .publish event =>
      let numbered := { subscription with sequence := subscription.sequence + 1 }
      if subscription.active && decide (event ∈ admission.events) then
        some (enqueue admission numbered ⟨event, subscription.sequence + 1⟩)
      else some numbered
    | .elsewhere count => some { subscription with sequence := subscription.sequence + count }
    | .microtask =>
      if subscription.scheduled then some (drainTurn { subscription with scheduled := false })
      else none
    | .settle outcome =>
      if subscription.inflight then
        some (drainTurn { subscription with
          inflight := false
          diagnostics := subscription.diagnostics ++ outcomeDiagnostics subscription outcome })
      else none
    | .dispose => some subscription.dispose

end Holonomy.Runtime
