import Holonomy.Process.Resources

/-!
# The events of a process

A channel retains the events it takes, and each listener has a cursor on them. Draining a listener
hands it one event after another; while a listener runs it may call the channel again, so the calls
at work are a stack.
-/

namespace Holonomy.Process

variable {Value Trusted : Type}

/-- A value that is emitted. -/
structure EmittedEvent (Value : Type) where
  event : ChannelEvent
  tuple : List Value

structure RetainedEvent (Value Trusted : Type) where
  value : EmittedEvent Value
  bytes : ℕ
  trusted : Trusted

structure ChannelListener where
  listener : ℕ
  place : ℕ
  cursor : ℕ

/-- A call of the channel at work. -/
inductive ChannelFrame where
  | drain (listener : ℕ)
  | drainAll (place : ℕ)
  | listening
  /-- `fail` emitted its error and is to emit the close. -/
  | failing
  deriving DecidableEq

structure ProcessEventChannelV1 (Value Trusted : Type) where
  closed : Bool
  errorEmitted : Bool
  events : List (RetainedEvent Value Trusted)
  listeners : List ChannelListener
  maximum : ℕ
  paused : Bool
  size : ℕ
  places : ℕ
  microtasks : List ℕ
  stack : List ChannelFrame
  subscribed : List ℕ
  delivered : List (ℕ × Trusted)

namespace ProcessEventChannelV1

def new (maximum : ℕ) : ProcessEventChannelV1 Value Trusted where
  closed := false
  errorEmitted := false
  events := []
  listeners := []
  maximum := maximum
  paused := false
  size := 0
  places := 0
  microtasks := []
  stack := []
  subscribed := []
  delivered := []

/-- The channel as far as it decides what it takes. -/
def counts (channel : ProcessEventChannelV1 Value Trusted) : ProcessEventChannel where
  maximum := channel.maximum
  size := channel.size
  events := channel.events.length
  closed := channel.closed
  errorEmitted := channel.errorEmitted

def drainAll (channel : ProcessEventChannelV1 Value Trusted) :
    ProcessEventChannelV1 Value Trusted :=
  if channel.paused then channel else { channel with stack := .drainAll 0 :: channel.stack }

def retain (channel : ProcessEventChannelV1 Value Trusted) (value : EmittedEvent Value)
    (bytes : ℕ) (trusted : Trusted) : ProcessEventChannelV1 Value Trusted :=
  { channel with
    size := channel.size + bytes
    events := channel.events ++ [⟨value, bytes, trusted⟩]
    errorEmitted := channel.errorEmitted || value.event = .error
    closed := value.event = .close
    paused := channel.paused && value.event ≠ .close }

section Calls

variable (trust : EmittedEvent Value → Option Trusted)

def emit (channel : ProcessEventChannelV1 Value Trusted) (value : EmittedEvent Value)
    (bytes : ℕ) : ProcessEventChannelV1 Value Trusted :=
  if channel.counts.accepts value.event bytes then
    match trust value with
    | none => { channel with size := channel.size + bytes }
    | some trusted => (channel.retain value bytes trusted).drainAll
  else channel

def fail (channel : ProcessEventChannelV1 Value Trusted) (error : Value) :
    ProcessEventChannelV1 Value Trusted :=
  if channel.closed then channel
  else if channel.counts.accepts .error 0 && (trust ⟨.error, [error]⟩).isNone then channel
  else emit trust { channel with stack := .failing :: channel.stack } ⟨.error, [error]⟩ 0

def pause (channel : ProcessEventChannelV1 Value Trusted) : ProcessEventChannelV1 Value Trusted :=
  { channel with paused := true }

def resume (channel : ProcessEventChannelV1 Value Trusted) : ProcessEventChannelV1 Value Trusted :=
  if channel.paused then { channel with paused := false }.drainAll else channel

def setCursor (listener cursor : ℕ) (entry : ChannelListener) : ChannelListener :=
  if entry.listener = listener then { entry with cursor := cursor } else entry

def enter (entries : List ChannelListener) (listener place : ℕ) : List ChannelListener :=
  if listener ∈ entries.map ChannelListener.listener then entries.map (setCursor listener 0)
  else entries ++ [⟨listener, place, 0⟩]

def subscribe (channel : ProcessEventChannelV1 Value Trusted) (listener : ℕ) :
    ProcessEventChannelV1 Value Trusted :=
  { channel with
    listeners := enter channel.listeners listener channel.places
    places := channel.places + 1
    microtasks := channel.microtasks ++ [listener]
    subscribed := channel.subscribed ++ [listener] }

/-- Take a listener away. -/
def unsubscribe (channel : ProcessEventChannelV1 Value Trusted) (listener : ℕ) :
    ProcessEventChannelV1 Value Trusted :=
  { channel with listeners := channel.listeners.filter fun entry => entry.listener ≠ listener }

def deliver (channel : ProcessEventChannelV1 Value Trusted) (entry : ChannelListener)
    (event : RetainedEvent Value Trusted) : ProcessEventChannelV1 Value Trusted :=
  { channel with
    listeners := channel.listeners.map (setCursor entry.listener (entry.cursor + 1))
    stack := .listening :: channel.stack
    delivered := channel.delivered ++ [(entry.listener, event.trusted)] }

def next? (channel : ProcessEventChannelV1 Value Trusted) (listener : ℕ) :
    Option (ChannelListener × RetainedEvent Value Trusted) :=
  if channel.paused then none
  else (channel.listeners.find? fun entry => entry.listener = listener).bind fun entry =>
    (channel.events[entry.cursor]?).map fun event => (entry, event)

/-- The innermost call goes on. -/
def proceed (channel : ProcessEventChannelV1 Value Trusted) :
    Option (ProcessEventChannelV1 Value Trusted) :=
  match channel.stack with
  | .drain listener :: rest =>
    match channel.next? listener with
    | none => some { channel with stack := rest }
    | some (entry, event) => some (channel.deliver entry event)
  | .drainAll place :: rest =>
    match channel.listeners.find? fun entry => place ≤ entry.place with
    | none => some { channel with stack := rest }
    | some entry => some { channel with
        stack := .drain entry.listener :: .drainAll (entry.place + 1) :: rest }
  | .failing :: rest => some (emit trust { channel with stack := rest } ⟨.close, []⟩ 0)
  | _ => none

end Calls

def isFree (channel : ProcessEventChannelV1 Value Trusted) : Bool :=
  channel.stack = [] || channel.stack.head? = some .listening

end ProcessEventChannelV1

/-- What happens to a channel. -/
inductive ChannelCall (Value : Type) where
  | emit (value : EmittedEvent Value) (bytes : ℕ)
  | fail (error : Value)
  | pause
  | resume
  | subscribe (listener : ℕ)
  | unsubscribe (listener : ℕ)
  | returns
  | microtask
  | proceed

open ProcessEventChannelV1 in
def ChannelCall.apply (trust : EmittedEvent Value → Option Trusted)
    (channel : ProcessEventChannelV1 Value Trusted) :
    ChannelCall Value → Option (ProcessEventChannelV1 Value Trusted)
  | .emit value bytes => if channel.isFree then some (channel.emit trust value bytes) else none
  | .fail error => if channel.isFree then some (channel.fail trust error) else none
  | .pause => if channel.isFree then some channel.pause else none
  | .resume => if channel.isFree then some channel.resume else none
  | .subscribe listener => if channel.isFree then some (channel.subscribe listener) else none
  | .unsubscribe listener => if channel.isFree then some (channel.unsubscribe listener) else none
  | .returns =>
    match channel.stack with
    | .listening :: rest => some { channel with stack := rest }
    | _ => none
  | .microtask =>
    match channel.stack, channel.microtasks with
    | [], listener :: rest => some { channel with stack := [.drain listener], microtasks := rest }
    | _, _ => none
  | .proceed => channel.proceed trust

def eventChannel (trust : EmittedEvent Value → Option Trusted) (maximum : ℕ) :
    Foundation.Machine (ProcessEventChannelV1 Value Trusted) (ChannelCall Value) where
  start := .new maximum
  step channel call := call.apply trust channel

end Holonomy.Process
