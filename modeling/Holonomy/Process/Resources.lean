import Holonomy.Foundation.Machine

/-!
# Process resources

The manager charges a process before the port spawns it, and stages what the port reports before the
spawn returns. A process that was admitted is held until its close event is delivered.
-/

namespace Holonomy.Process

/-- The limits of the policy. -/
structure ProcessLimits where
  maxConcurrentProcesses : ℕ
  maxTotalProcesses : ℕ
  maxOpenPipes : ℕ
  maxProcessTreeDepth : ℕ
  maxStdoutBytes : ℕ
  maxStderrBytes : ℕ

/-- The codes of the errors that the manager throws. -/
inductive InvocationErrorCode where
  | argumentInvalid
  | resourceHandleLimit
  | resourceStale
  | policyDenied
deriving DecidableEq

/-- What a stream of a process is connected to. -/
inductive StdioValue where
  | ignore
  | pipe
  | other
deriving DecidableEq

section Channels

inductive ChannelEvent where
  | error
  | close
  | plain
deriving DecidableEq

structure ProcessEventChannel where
  maximum : ℕ
  size : ℕ
  events : ℕ
  closed : Bool
  errorEmitted : Bool
deriving DecidableEq

def maxRetainedEvents : ℕ := 4096

/-- The number of places that are kept for the last events. -/
def terminalSlots : ℕ := 2

namespace ProcessEventChannel

def new (maximum : ℕ) : ProcessEventChannel := ⟨maximum, 0, 0, false, false⟩

/-- There is room for data of this size. -/
def canAccept (channel : ProcessEventChannel) (bytes : Option ℕ) : Bool :=
  match bytes with
  | none => false
  | some bytes => !channel.closed && channel.events < maxRetainedEvents - terminalSlots &&
      bytes ≤ channel.maximum - channel.size

def accepts (channel : ProcessEventChannel) (event : ChannelEvent) (bytes : ℕ) : Bool :=
  !channel.closed &&
    (match event with
      | .error => !channel.errorEmitted && channel.events < maxRetainedEvents - 1
      | .close => channel.events < maxRetainedEvents
      | .plain => channel.events < maxRetainedEvents - terminalSlots) &&
    channel.size + bytes ≤ channel.maximum

def emit (channel : ProcessEventChannel) (event : ChannelEvent) (bytes : ℕ) : ProcessEventChannel :=
  if channel.accepts event bytes then
    { channel with
      size := channel.size + bytes
      events := channel.events + 1
      errorEmitted := channel.errorEmitted || event = .error
      closed := event = .close }
  else channel

def fail (channel : ProcessEventChannel) : ProcessEventChannel :=
  if channel.closed then channel else (channel.emit .error 0).emit .close 0

end ProcessEventChannel

end Channels

section Sinks

/-- The streams that a process writes. -/
inductive OutputStream where
  | stdout
  | stderr
deriving DecidableEq

inductive SinkEvent where
  | spawn
  | error
  | exit (admissible : Bool)
  | close (admissible : Bool)
  | output (stream : OutputStream) (bytes : Option ℕ) (described refused : Bool)
  | outputEnd (stream : OutputStream)
  | outputError (stream : OutputStream)
  | outputClose (stream : OutputStream)
  | stdinError
  | stdinClose
  | stdinCallback
deriving DecidableEq

/-- A process, with what its port reported before it was admitted. -/
structure ProcessState where
  executableId : ℕ
  pipeCount : ℕ
  closed : Bool
  spawned : Bool
  exited : Bool
  outputFailed : Bool
  stdinClosed : Bool
  childEvents : ProcessEventChannel
  stdoutEvents : ProcessEventChannel
  stderrEvents : ProcessEventChannel
  queued : List SinkEvent
  bytes : ℕ
  overflow : Bool
  ready : Bool
deriving DecidableEq

/-- What handling an event comes to. -/
structure Handled where
  process : ProcessState
  leaves : Bool
  kills : Bool
  throws : Bool

/-- The number of events that can be staged. -/
def maxEvents : ℕ := 256

/-- The number of bytes of output that can be staged. -/
def maxBytes : ℕ := 256 * 1024

namespace ProcessState

def events (process : ProcessState) : OutputStream → ProcessEventChannel
  | .stdout => process.stdoutEvents
  | .stderr => process.stderrEvents

def withEvents (process : ProcessState) (stream : OutputStream) (channel : ProcessEventChannel) :
    ProcessState :=
  match stream with
  | .stdout => { process with stdoutEvents := channel }
  | .stderr => { process with stderrEvents := channel }

/-- Nothing but the process may have changed. -/
def quietly (process : ProcessState) : Handled := ⟨process, false, false, false⟩

def tell (process : ProcessState) (event : ChannelEvent) : ProcessState :=
  { process with childEvents := process.childEvents.emit event 0 }

def tellReaders (process : ProcessState) (stream : OutputStream) (event : ChannelEvent)
    (bytes : ℕ) : ProcessState :=
  process.withEvents stream ((process.events stream).emit event bytes)

def readable (process : ProcessState) (stream : OutputStream) (bytes : Option ℕ)
    (described : Bool) : Handled :=
  let channel := process.events stream
  if process.outputFailed then process.quietly
  else if channel.canAccept bytes && described && channel.accepts .plain (bytes.getD 0) then
    (process.tellReaders stream .plain (bytes.getD 0)).quietly
  else
    ⟨({ process with outputFailed := true }.withEvents stream channel.fail).tell .error, false,
      true, false⟩

def leave (process : ProcessState) (admissible : Bool) : Handled :=
  let closed := ({ process with closed := true, stdinClosed := true }.tellReaders .stdout .close
    0).tellReaders .stderr .close 0
  if admissible || !process.childEvents.accepts .close 0 then ⟨closed.tell .close, true,
    false, false⟩
  else ⟨closed, false, false, true⟩

def exit (process : ProcessState) (admissible : Bool) : Handled :=
  let exited := { process with exited := true }
  if admissible then (exited.tell .plain).quietly
  else ⟨exited, false, false, process.childEvents.accepts .plain 0⟩

def handle (process : ProcessState) : SinkEvent → Handled
  | .spawn =>
    if process.closed || process.spawned then process.quietly
    else ({ process with spawned := true }.tell .plain).quietly
  | .error =>
    if process.closed || process.outputFailed then process.quietly
    else (process.tell .error).quietly
  | .exit admissible =>
    if process.closed || process.exited then process.quietly else process.exit admissible
  | .close admissible => if process.closed then process.quietly else process.leave admissible
  | .output stream bytes described _ =>
    if process.closed then process.quietly else process.readable stream bytes described
  | .outputEnd stream =>
    if process.closed then process.quietly else (process.tellReaders stream .plain 0).quietly
  | .outputError stream =>
    if process.closed then process.quietly else (process.tellReaders stream .error 0).quietly
  | .outputClose stream =>
    if process.closed then process.quietly else (process.tellReaders stream .close 0).quietly
  | .stdinError => process.quietly
  | .stdinClose => { process with stdinClosed := true }.quietly
  | .stdinCallback => process.quietly

def countOf : SinkEvent → Option ℕ
  | .output _ bytes _ _ => bytes
  | _ => some 0

def stage (process : ProcessState) (event : SinkEvent) : ProcessState :=
  if process.overflow then process
  else match countOf event with
    | none => { process with overflow := true, queued := [] }
    | some count =>
      if maxEvents ≤ process.queued.length ∨ maxBytes < process.bytes + count then
        { process with overflow := true, queued := [] }
      else { process with bytes := process.bytes + count, queued := process.queued ++ [event] }

def new (limits : ProcessLimits) (executableId pipeCount : ℕ) (maxBufferBytes : Option ℕ) :
    ProcessState where
  executableId := executableId
  pipeCount := pipeCount
  closed := false
  spawned := false
  exited := false
  outputFailed := false
  stdinClosed := false
  childEvents := .new (256 * 1024)
  stdoutEvents := .new (min (maxBufferBytes.getD (2 ^ 53 - 1)) limits.maxStdoutBytes)
  stderrEvents := .new (min (maxBufferBytes.getD (2 ^ 53 - 1)) limits.maxStderrBytes)
  queued := []
  bytes := 0
  overflow := false
  ready := false

end ProcessState

def SinkEvent.refused : SinkEvent → Bool
  | .output _ _ _ refused => refused
  | _ => false

end Sinks

section Descendants

/-- A process of the guest that was admitted. -/
structure LinuxIdentity where
  depth : ℕ
  executableId : ℕ
  processStartTimeTicks : Option ℕ
deriving DecidableEq

/-- The processes of the guest that stem from a process, by their numbers. -/
structure LinuxTree where
  /-- The number of the first of them, as the first request told it. -/
  root : ℕ
  identities : ℕ → Option LinuxIdentity

/-- Who asks for a descendant. -/
structure LinuxSource where
  processResourceId : ℕ
  rootLinuxPid : ℕ
  linuxPid : ℕ
  processStartTimeTicks : ℕ
  executableId : ℕ

/-- What is asked: the process that is about to run another program. -/
structure DescendantRequest where
  linuxPid : ℕ
  parentLinuxPid : ℕ
  processStartTimeTicks : ℕ

def LinuxTree.new (source : LinuxSource) (executableId : ℕ) : LinuxTree where
  root := source.rootLinuxPid
  identities pid :=
    if pid = source.rootLinuxPid then some ⟨1, executableId,
      if source.linuxPid = source.rootLinuxPid then some source.processStartTimeTicks else none⟩
    else none

def LinuxTree.set (tree : LinuxTree) (pid : ℕ) (identity : LinuxIdentity) : LinuxTree :=
  { tree with identities := Function.update tree.identities pid (some identity) }

def LinuxTree.startOf (tree : LinuxTree) (pid : ℕ) : Option ℕ :=
  (tree.identities pid).bind LinuxIdentity.processStartTimeTicks

def LinuxTree.running (tree : LinuxTree) (pid executableId : ℕ) : LinuxTree :=
  match tree.identities pid with
  | some identity =>
    if identity.executableId ≠ executableId then
      tree.set pid { identity with executableId := executableId }
    else tree
  | none => tree

/-- What a request comes to: the tree and what is charged. -/
structure Reservation where
  tree : LinuxTree
  totalIncrement : ℕ

def reserveProcessDescendant (limits : ProcessLimits) (total executableId : ℕ)
    (source : LinuxSource) (input : DescendantRequest) (known : Option LinuxTree) :
    Except InvocationErrorCode Reservation :=
  let tree := known.getD (LinuxTree.new source executableId)
  if tree.startOf input.linuxPid = some input.processStartTimeTicks then
    .ok ⟨tree.running input.linuxPid source.executableId, 0⟩
  else if input.linuxPid = source.rootLinuxPid then
    if (tree.startOf input.linuxPid).isSome then .error .resourceStale
    else if limits.maxProcessTreeDepth < 1 then .error .resourceHandleLimit
    else
      let admitted := tree.set input.linuxPid ⟨1, executableId, some input.processStartTimeTicks⟩
      .ok ⟨admitted.running input.linuxPid source.executableId, 0⟩
  else match tree.identities input.parentLinuxPid with
    | none => .error .policyDenied
    | some parent =>
      if limits.maxProcessTreeDepth < parent.depth + 1 ∨ limits.maxTotalProcesses ≤ total then
        .error .resourceHandleLimit
      else
        let admitted := tree.set input.linuxPid
          ⟨parent.depth + 1, parent.executableId, some input.processStartTimeTicks⟩
        .ok ⟨admitted.running input.linuxPid source.executableId, 1⟩

end Descendants

end Holonomy.Process
