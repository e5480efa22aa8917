import Holonomy.Foundation.Machine
import Holonomy.Foundation.Text

/-!
# Executing an invocation

An invocation runs through its middleware and ends at the provider, unless a middleware answers
itself. Every middleware is a frame with a `next` of its own, which a handler may keep and call at
any time, also long after the invocation.
-/

namespace Holonomy.Runtime

open Foundation

/-- What handlers and providers throw. -/
inductive ThrownV1 where
  | capability (code : Text)
  | foreign

def ThrownV1.code (foreign : Text) : ThrownV1 → Text
  | .capability code => code
  | .foreign => foreign

/-- How a dispatch ended: with a trusted result or with a failure. -/
inductive OutcomeV1 (ν : Type) where
  | result (value : ν)
  | failed (code : Text)
  deriving DecidableEq

/-- What a handler returned. -/
inductive MiddlewareValueV1 (ν : Type) where
  | trusted (value : ν)
  | promise
  | untrusted

inductive ProviderValueV1 (ν : Type) where
  | terminal (owned : Bool) (result : ν)
  | promise

def providerResult {ν : Type} (owned : Bool) (result : ν) : OutcomeV1 ν :=
  if owned then .result result else .failed (js "provider.protocol_error")

/-- What both dispatchers know about an invocation. -/
structure ExecutionInputV1 where
  middleware : ℕ
  middlewareSync : Bool
  providerSync : Bool
  deriving DecidableEq

/-- How far a provider is. -/
inductive ProviderPhaseV1 (ν : Type) where
  | absent
  | checkpoint
  | refused (code : Text)
  | started
  | ended (outcome : OutcomeV1 ν)

section Sync

/-- A frame of the synchronous dispatcher. -/
structure SyncFrameV1 (ν : Type) where
  entered : Bool
  called : Bool
  violation : Bool
  outcome : Option (OutcomeV1 ν)

/-- The state of a synchronous invocation. -/
structure SyncExecutionV1 (ν : Type) where
  frames : ℕ → SyncFrameV1 ν
  provider : ProviderPhaseV1 ν
  closed : Bool
  /-- The starts of the provider, each with what `closed` was then. -/
  starts : List Bool
  rejected : Bool

/-- What can happen in and after a synchronous invocation. -/
inductive SyncEventV1 (ν : Type) where
  | callsNext (index : ℕ)
  | returns (index : ℕ) (value : MiddlewareValueV1 ν)
  | throws (index : ℕ) (error : ThrownV1)
  | providerReturns (value : ProviderValueV1 ν)
  | providerThrows (error : ThrownV1)
  /-- The result is decided, and `invokeSync` closes the lease. -/
  | closes

namespace SyncExecutionV1

variable {ν : Type}

def put (execution : SyncExecutionV1 ν) (index : ℕ) (frame : SyncFrameV1 ν) : SyncExecutionV1 ν :=
  { execution with frames := Function.update execution.frames index frame }

def syncProvider (input : ExecutionInputV1) (execution : SyncExecutionV1 ν) : SyncExecutionV1 ν :=
  if input.providerSync then
    { execution with
      provider := .started
      starts := execution.starts ++ [execution.closed] }
  else { execution with provider := .ended (.failed (js "runtime.async_required")) }

/-- Call a handler, or the provider behind the last one. -/
def dispatch (input : ExecutionInputV1) (execution : SyncExecutionV1 ν) (index : ℕ) :
    SyncExecutionV1 ν :=
  if index < input.middleware then execution.put index ⟨true, false, false, none⟩
  else execution.syncProvider input

def outcome? (input : ExecutionInputV1) (execution : SyncExecutionV1 ν) (index : ℕ) :
    Option (OutcomeV1 ν) :=
  if index < input.middleware then (execution.frames index).outcome
  else match execution.provider with
    | .ended outcome => some outcome
    | _ => none

def callNext (input : ExecutionInputV1) (execution : SyncExecutionV1 ν) (index : ℕ) :
    SyncExecutionV1 ν :=
  let frame := execution.frames index
  if frame.called then execution.put index { frame with violation := true }
  else (execution.put index { frame with called := true }).dispatch input (index + 1)

/-- The handler of a frame may go on: it is not inside its call of `next`. -/
def Resumed (input : ExecutionInputV1) (execution : SyncExecutionV1 ν) (index : ℕ) : Prop :=
  (execution.frames index).entered = true ∧ (execution.frames index).outcome.isNone ∧
    ((execution.frames index).called = true → (execution.outcome? input (index + 1)).isSome)

instance (input : ExecutionInputV1) (execution : SyncExecutionV1 ν) (index : ℕ) :
    Decidable (execution.Resumed input index) :=
  inferInstanceAs (Decidable (_ ∧ _ ∧ _))

/-- What `dispatch` makes of a handler's value. -/
def admitted (violation : Bool) : MiddlewareValueV1 ν → OutcomeV1 ν
  | value =>
    if violation then .failed (js "middleware.failed")
    else match value with
      | .trusted value => .result value
      | .promise => .failed (js "runtime.async_required")
      | .untrusted => .failed (js "middleware.invalid_result")

/-- A frame ends. -/
def finish (execution : SyncExecutionV1 ν) (index : ℕ) (outcome : OutcomeV1 ν) :
    SyncExecutionV1 ν :=
  execution.put index { execution.frames index with outcome := some outcome }

def providerOutcome : ProviderValueV1 ν → OutcomeV1 ν
  | .terminal owned result => providerResult owned result
  | .promise => .failed (js "runtime.async_required")

def endProvider (execution : SyncExecutionV1 ν) (outcome : OutcomeV1 ν) :
    Option (SyncExecutionV1 ν) :=
  match execution.provider with
  | .started => some { execution with provider := .ended outcome }
  | _ => none

def new (input : ExecutionInputV1) : SyncExecutionV1 ν :=
  let execution : SyncExecutionV1 ν :=
    ⟨fun _ => ⟨false, false, false, none⟩, .absent, false, [], !input.middlewareSync⟩
  if input.middlewareSync then execution.dispatch input 0 else execution

def Decided (input : ExecutionInputV1) (execution : SyncExecutionV1 ν) : Prop :=
  execution.rejected = true ∨ (execution.outcome? input 0).isSome

instance (input : ExecutionInputV1) (execution : SyncExecutionV1 ν) :
    Decidable (execution.Decided input) := inferInstanceAs (Decidable (_ ∨ _))

/-- What an event makes of the state, when it can happen. -/
def step (input : ExecutionInputV1) (execution : SyncExecutionV1 ν) :
    SyncEventV1 ν → Option (SyncExecutionV1 ν)
  | .callsNext index =>
    if (execution.frames index).entered then some (execution.callNext input index) else none
  | .returns index value =>
    if execution.Resumed input index then
      some (execution.finish index (admitted (execution.frames index).violation value))
    else none
  | .throws index error =>
    if execution.Resumed input index then
      some (execution.finish index (.failed (error.code (js "middleware.failed"))))
    else none
  | .providerReturns value => execution.endProvider (providerOutcome value)
  | .providerThrows error =>
    execution.endProvider (.failed (error.code (js "provider.unavailable")))
  | .closes =>
    if execution.closed = false ∧ execution.Decided input then some
      { execution with closed := true }
    else none

end SyncExecutionV1

/-- One synchronous invocation. -/
def executeCapabilitySyncV1 (ν : Type) (input : ExecutionInputV1) :
    Machine (SyncExecutionV1 ν) (SyncEventV1 ν) where
  start := SyncExecutionV1.new input
  step := SyncExecutionV1.step input

end Sync

section Async

inductive AsyncPhaseV1 (ν : Type) where
  | absent
  | dispatched
  /-- The result of its handler, or of the provider, takes part in a race. -/
  | running
  | ended (outcome : OutcomeV1 ν)

structure AsyncFrameV1 (ν : Type) where
  phase : AsyncPhaseV1 ν
  entered : Bool
  called : Bool
  frameClosed : Bool

structure AsyncExecutionV1 (ν : Type) where
  frames : ℕ → AsyncFrameV1 ν
  provider : ProviderPhaseV1 ν
  closed : Bool
  /-- The code of the signal's reason, once it is aborted. -/
  aborted : Option Text
  poisoned : Bool
  /-- The starts of the provider, each with what `closed` was then. -/
  starts : List Bool

/-- How a race ended. -/
inductive RaceV1 (α : Type) where
  | returned (value : α)
  | threw (error : ThrownV1)
  | aborted
  | timedOut

inductive AsyncEventV1 (ν : Type) where
  | dispatches (index : ℕ)
  | callsNext (index : ℕ)
  | settles (index : ℕ) (race : RaceV1 (MiddlewareValueV1 ν))
  | checkpoint
  | providerSettles (race : RaceV1 (Bool × ν))
  /-- Somebody aborts the invocation: its deadline, the runtime, or the broker when it closes the
  lease with frames pending. -/
  | aborts (code : Text)
  /-- The result is decided, and the broker closes the lease. -/
  | closes

namespace AsyncExecutionV1

variable {ν : Type}

def put (execution : AsyncExecutionV1 ν) (index : ℕ) (frame : AsyncFrameV1 ν) :
    AsyncExecutionV1 ν :=
  { execution with frames := Function.update execution.frames index frame }

/-- The first abort gives the reason. -/
def abort (execution : AsyncExecutionV1 ν) (code : Text) : AsyncExecutionV1 ν :=
  { execution with aborted := execution.aborted.or (some code) }

def abortFailure (execution : AsyncExecutionV1 ν) : Text :=
  execution.aborted.getD (js "runtime.cancelled")

def poison (execution : AsyncExecutionV1 ν) : AsyncExecutionV1 ν :=
  { execution.abort (js "middleware.failed") with poisoned := true }

/-- Create the task of a frame. -/
def start (execution : AsyncExecutionV1 ν) (index : ℕ) : AsyncExecutionV1 ν :=
  execution.put index ⟨.dispatched, false, false, false⟩

def finish (execution : AsyncExecutionV1 ν) (index : ℕ) (outcome : OutcomeV1 ν) :
    AsyncExecutionV1 ν :=
  let frame := execution.frames index
  execution.put index { frame with phase := .ended outcome, frameClosed := frame.entered }

/-- A frame ends with a failure, which aborts the invocation. -/
def fail (execution : AsyncExecutionV1 ν) (index : ℕ) (code : Text) : AsyncExecutionV1 ν :=
  (execution.abort code).finish index (.failed code)

def dispatch (input : ExecutionInputV1) (execution : AsyncExecutionV1 ν) (index : ℕ) :
    AsyncExecutionV1 ν :=
  let frame := execution.frames index
  if execution.closed ∨ execution.aborted.isSome then
    execution.finish index (.failed execution.abortFailure)
  else if index < input.middleware then
    execution.put index { frame with phase := .running, entered := true }
  else
    { execution.put index { frame with phase := .running } with provider := .checkpoint }

def callNext (execution : AsyncExecutionV1 ν) (index : ℕ) : AsyncExecutionV1 ν :=
  let frame := execution.frames index
  if frame.called ∨ frame.frameClosed ∨ execution.closed then execution.poison
  else (execution.put index { frame with called := true }).start (index + 1)

/-- The race for a handler's result is over. -/
def settle (execution : AsyncExecutionV1 ν) (index : ℕ) :
    RaceV1 (MiddlewareValueV1 ν) → AsyncExecutionV1 ν
  | .returned value =>
    if execution.poisoned then execution.fail index (js "middleware.failed")
    else match value with
      | .trusted value => execution.finish index (.result value)
      | _ => execution.fail index (js "middleware.invalid_result")
  | .threw error => execution.fail index (error.code (js "middleware.failed"))
  | .aborted => execution.fail index execution.abortFailure
  | .timedOut => execution.fail index (js "middleware.timeout")

/-- The timer of the checkpoint fires. -/
def passCheckpoint (execution : AsyncExecutionV1 ν) : AsyncExecutionV1 ν :=
  if execution.closed ∨ execution.aborted.isSome then
    { execution with provider := .refused execution.abortFailure }
  else
    { execution with
      provider := .started
      starts := execution.starts ++ [execution.closed] }

def settleProvider (execution : AsyncExecutionV1 ν) (index : ℕ) :
    RaceV1 (Bool × ν) → AsyncExecutionV1 ν
  | .returned terminal =>
    execution.finish index (if execution.aborted.isSome then .failed execution.abortFailure
      else providerResult terminal.1 terminal.2)
  | .threw error => execution.finish index (.failed (error.code (js "provider.unavailable")))
  | .aborted => execution.finish index (.failed execution.abortFailure)
  | .timedOut =>
    (execution.abort (js "provider.timeout")).finish index (.failed (js "provider.timeout"))

def ProviderRace (execution : AsyncExecutionV1 ν) : RaceV1 (Bool × ν) → Prop
  | .returned _ => match execution.provider with | .started => True | _ => False
  | .threw error => match execution.provider with
    | .started => True
    | .refused code => error.code (js "provider.unavailable") = code
    | _ => False
  | .aborted => execution.aborted.isSome
  | .timedOut => True

instance (execution : AsyncExecutionV1 ν) : DecidablePred execution.ProviderRace := by
  intro race
  cases race with
  | returned value =>
    unfold ProviderRace
    cases execution.provider <;> infer_instance
  | threw error =>
    unfold ProviderRace
    cases execution.provider <;> infer_instance
  | aborted => exact inferInstanceAs (Decidable (_ = true))
  | timedOut => exact .isTrue trivial

def HandlerRace (execution : AsyncExecutionV1 ν) : RaceV1 (MiddlewareValueV1 ν) → Bool
  | .aborted => execution.aborted.isSome
  | _ => true

/-- A frame takes part in a race. -/
def Running (execution : AsyncExecutionV1 ν) (index : ℕ) : Bool :=
  match (execution.frames index).phase with
  | .running => true
  | _ => false

def new : AsyncExecutionV1 ν :=
  AsyncExecutionV1.start ⟨fun _ => ⟨.absent, false, false, false⟩, .absent, false, none,
    false, []⟩ 0

/-- What an event makes of the state, when it can happen. -/
def step (input : ExecutionInputV1) (execution : AsyncExecutionV1 ν) :
    AsyncEventV1 ν → Option (AsyncExecutionV1 ν)
  | .dispatches index =>
    match (execution.frames index).phase with
    | .dispatched => some (execution.dispatch input index)
    | _ => none
  | .callsNext index =>
    if (execution.frames index).entered then some (execution.callNext index) else none
  | .settles index race =>
    if index < input.middleware ∧ execution.Running index ∧ execution.HandlerRace race then
      some (execution.settle index race)
    else none
  | .checkpoint =>
    match execution.provider with
    | .checkpoint => some execution.passCheckpoint
    | _ => none
  | .providerSettles race =>
    if execution.Running input.middleware ∧ execution.ProviderRace race then
      some (execution.settleProvider input.middleware race)
    else none
  | .aborts code => some (execution.abort code)
  | .closes =>
    match (execution.frames 0).phase with
    | .ended _ => if execution.closed then none else some { execution with closed := true }
    | _ => none

end AsyncExecutionV1

def executeCapabilityAsyncV1 (ν : Type) (input : ExecutionInputV1) :
    Machine (AsyncExecutionV1 ν) (AsyncEventV1 ν) where
  start := AsyncExecutionV1.new
  step := AsyncExecutionV1.step input

end Async

end Holonomy.Runtime
