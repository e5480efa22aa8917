import Holonomy.Supervisor.Payload
import Holonomy.Foundation.Machine
import Holonomy.Supervisor.Decoder

/-!
# The host's side of a supervisor connection

Callers spawn, command and configure; the transport delivers bytes; handlers complete later.
Whatever goes wrong fails the whole connection.
-/

namespace Holonomy.Supervisor

open Foundation

/-! ## The tables of a supervisor connection

The host keeps the requests it sent and that wait for an answer, the processes of the guest with
their sources, and what was granted to them: executions that wait for their result and connections
that wait to be made.
-/

/-- What a call or the connection fails with. -/
inductive ErrorV1 where
  | failure (code : Text)
  | typeError (message : Text)
  | reported (code : Text)
  /-- An error that a transport, a sink or a handler throws. -/
  | thrown
  | other
  deriving DecidableEq

def errorValue : ErrorV1 → ErrorV1
  | .other => .failure (js "supervisor.failed")
  | error => error

def protocolError : ErrorV1 := .failure (js "supervisor.protocol_error")

/-- The failure of what comes after the end. -/
def closedError : ErrorV1 := .failure (js "supervisor.closed")

def payloadError : ErrorV1 := .typeError (js "Invalid HoloUV supervisor payload")

def frameError : ErrorV1 := .typeError (js "Invalid Process supervisor frame")

/-- What was written, unless its writer throws. -/
def orThrow {α : Type} (error : ErrorV1) : Option α → Except ErrorV1 α
  | some value => .ok value
  | none => .error error

/-- A process of the guest as its environment knows it. -/
structure HoloUvProcessSourceV1 where
  executableId : Text
  linuxPid : UInt32
  processResourceId : Text
  deriving DecidableEq

/-- A process inside the tree of a process. -/
structure HoloUvLinuxProcessSourceV1 extends HoloUvProcessSourceV1 where
  parentLinuxPid : UInt32
  processStartTimeTicks : ℕ
  rootLinuxPid : UInt32
  deriving DecidableEq

/-- What a request is for. -/
inductive PendingKindV1 where
  | command (processId : UInt32)
  | configuration
  | spawn (executableId processResourceId : Text)
  deriving DecidableEq

/-- A request that waits for its answer, with the place of its promise. -/
structure PendingV1 where
  kind : PendingKindV1
  terminal : ℕ
  deriving DecidableEq

/-- How a promise was settled. -/
inductive SettlementV1 where
  | resolved
  | rejected (error : ErrorV1)
  deriving DecidableEq

/-- The promise of a request. -/
structure TerminalV1 where
  requestId : UInt32
  returned : Bool
  handed : Option (List UInt8)
  writing : Bool
  settlement : Option SettlementV1
  deriving DecidableEq

/-- Resolve or reject a promise; only the first time counts. -/
def TerminalV1.settle (terminal : TerminalV1) (settlement : SettlementV1) : TerminalV1 :=
  { terminal with settlement := some (terminal.settlement.getD settlement) }

/-- An execution that was granted and waits for its result. -/
structure PendingExecutionCommitV1 where
  caller : HoloUvLinuxProcessSourceV1
  processId : UInt32
  targetExecutableId : Text
  deriving DecidableEq

/-- A connection that was granted and waits to be made. -/
structure HoloUvNetworkAdmissionV1 extends HoloUvLinuxProcessSourceV1 where
  address : Text
  expiresAt : ℕ
  port : ℕ
  processId : UInt32
  transport : NetworkTransport
  /-- Its number among the admissions, which tells equal ones apart. -/
  serial : ℕ
  deriving DecidableEq

/-- A process, as far as frames change it. -/
structure HoloUvSupervisorProcessV1 where
  serial : ℕ
  closed : Bool
  exited : Bool
  stderr : ℕ
  stdout : ℕ
  deriving DecidableEq

/-- An admission that was handed out, and for what. -/
structure ConsumptionV1 where
  admission : HoloUvNetworkAdmissionV1
  address : Text
  port : ℕ
  transport : NetworkTransport
  now : ℕ
  deriving DecidableEq

/-- The tables of an environment, and what became of their entries. -/
structure TablesV1 where
  closed : Bool
  pending : UInt32 → Option PendingV1
  pendingExecutionCommits : UInt32 → Option PendingExecutionCommitV1
  networkAdmissions : List HoloUvNetworkAdmissionV1
  processes : UInt32 → Option HoloUvSupervisorProcessV1
  processSources : UInt32 → Option HoloUvProcessSourceV1
  linuxProcessSources : UInt32 → Option (UInt32 → Option HoloUvLinuxProcessSourceV1)
  terminals : List TerminalV1
  admitted : ℕ
  consumed : List ConsumptionV1
  /-- The handlers that were invoked, by the places of their jobs. -/
  invocations : List ℕ

namespace TablesV1

def new : TablesV1 where
  closed := false
  pending _ := none
  pendingExecutionCommits _ := none
  networkAdmissions := []
  processes _ := none
  processSources _ := none
  linuxProcessSources _ := none
  terminals := []
  admitted := 0
  consumed := []
  invocations := []

variable (tables : TablesV1)

def Awaited (index : ℕ) (terminal : TerminalV1) : Prop :=
  (tables.pending terminal.requestId).map PendingV1.terminal = some index

instance (index : ℕ) (terminal : TerminalV1) : Decidable (tables.Awaited index terminal) :=
  inferInstanceAs (Decidable (_ = _))

def fail (error : ErrorV1) (heard : Option (UInt32 → Bool × Bool)) : TablesV1 :=
  if tables.closed then tables
  else
    { tables with
      closed := true
      terminals := tables.terminals.mapIdx fun index terminal =>
        if tables.Awaited index terminal then terminal.settle (.rejected (errorValue error))
        else terminal
      pending := fun _ => none
      pendingExecutionCommits := fun _ => none
      networkAdmissions := []
      processes := fun processId => heard.bind fun told => (tables.processes processId).map
        fun process => { process with
          exited := process.exited || (told processId).1
          closed := process.closed || (told processId).2 }
      linuxProcessSources := fun processId => heard.bind fun _ =>
        tables.linuxProcessSources processId
      processSources := fun processId => heard.bind fun _ => tables.processSources processId }

/-- Enter a request with its promise. -/
def request (kind : PendingKindV1) (terminal : TerminalV1) : TablesV1 :=
  { tables with
    pending := Function.update tables.pending terminal.requestId
      (some ⟨kind, tables.terminals.length⟩)
    terminals := tables.terminals ++ [terminal] }

def settle (requestId : UInt32) (entry : PendingV1) (settlement : SettlementV1) : TablesV1 :=
  { tables with
    pending := Function.update tables.pending requestId none
    terminals := tables.terminals.modify entry.terminal fun terminal => terminal.settle settlement }

/-- The request of a promise could not be written. -/
def writeFailed (index : ℕ) (terminal : TerminalV1) (error : ErrorV1) : TablesV1 :=
  { tables with
    pending := Function.update tables.pending terminal.requestId none
    terminals := tables.terminals.set index
      ({ terminal with writing := false }.settle (.rejected error)) }

/-- The request of a promise was written. -/
def writeSucceeded (index : ℕ) (terminal : TerminalV1) : TablesV1 :=
  { tables with terminals := tables.terminals.set index { terminal with writing := false } }

def spawned (requestId processId : UInt32) (entry : PendingV1)
    (source : HoloUvProcessSourceV1) (serial : ℕ) : TablesV1 :=
  { tables.settle requestId entry .resolved with
    processes := Function.update tables.processes processId (some ⟨serial, false, false, 0, 0⟩)
    processSources := Function.update tables.processSources processId (some source)
    linuxProcessSources := Function.update tables.linuxProcessSources processId
      (some (Function.update (fun _ => none) source.linuxPid
        (some ⟨source, 1, 0, source.linuxPid⟩))) }

/-- Change what is known of a process. -/
def touch (processId : UInt32) (process : HoloUvSupervisorProcessV1) : TablesV1 :=
  { tables with processes := Function.update tables.processes processId (some process) }

/-- Take a process out, with all that was granted to it. -/
def remove (processId : UInt32) : TablesV1 :=
  { tables with
    processes := Function.update tables.processes processId none
    processSources := Function.update tables.processSources processId none
    linuxProcessSources := Function.update tables.linuxProcessSources processId none
    networkAdmissions := tables.networkAdmissions.filter fun admission =>
      admission.processId ≠ processId
    pendingExecutionCommits := fun requestId => (tables.pendingExecutionCommits requestId).filter
      fun commit => commit.processId ≠ processId }

def plant (processId : UInt32) (tree : UInt32 → Option HoloUvLinuxProcessSourceV1) : TablesV1 :=
  { tables with linuxProcessSources :=
      Function.update tables.linuxProcessSources processId (some tree) }

/-- Enter or take out an execution. -/
def commit (requestId : UInt32) (entry : Option PendingExecutionCommitV1) : TablesV1 :=
  { tables with pendingExecutionCommits :=
      Function.update tables.pendingExecutionCommits requestId entry }

def prune (now : ℕ) : TablesV1 :=
  { tables with networkAdmissions := tables.networkAdmissions.filter fun admission =>
      now < admission.expiresAt }

def record (source : HoloUvLinuxProcessSourceV1) (request : ProcessSupervisorNetworkRequestV1)
    (processId : UInt32) (now : ℕ) : TablesV1 :=
  { tables with
    networkAdmissions := tables.networkAdmissions ++ [⟨source, request.address, now + 5000,
      request.port, processId, request.transport, tables.admitted⟩]
    admitted := tables.admitted + 1 }

def Suits (address : Text) (port : ℕ) (transport : NetworkTransport)
    (admission : HoloUvNetworkAdmissionV1) : Prop :=
  admission.address = address ∧ admission.port = port ∧
    (admission.transport = transport ∨ admission.transport = .connect)

instance (address : Text) (port : ℕ) (transport : NetworkTransport) :
    DecidablePred (Suits address port transport) :=
  fun _ => inferInstanceAs (Decidable (_ ∧ _ ∧ _))

def consumeNetworkAdmission (address : Text) (port : ℕ) (transport : NetworkTransport)
    (now : ℕ) : TablesV1 :=
  let fresh := tables.prune now
  let index := fresh.networkAdmissions.findIdx fun admission =>
    decide (Suits address port transport admission)
  match fresh.networkAdmissions[index]? with
  | none => fresh
  | some admission =>
    { fresh with
      networkAdmissions := fresh.networkAdmissions.eraseIdx index
      consumed := tables.consumed ++ [⟨admission, address, port, transport, now⟩] }

def invoke (job : ℕ) : TablesV1 := { tables with invocations := tables.invocations ++ [job] }

def processSource (processId : UInt32) : Option HoloUvProcessSourceV1 :=
  if processId = 0 then none else tables.processSources processId

def resolveLinuxProcessSource (processId : UInt32) (root : HoloUvProcessSourceV1)
    (linuxPid parentLinuxPid : UInt32) (processStartTimeTicks : ℕ) :
    Option (HoloUvLinuxProcessSourceV1 × (UInt32 → Option HoloUvLinuxProcessSourceV1)) := do
  let tree ← tables.linuxProcessSources processId
  let existing := tree linuxPid
  match existing.filter fun known => known.processStartTimeTicks = processStartTimeTicks with
  | some known => some ({ known with parentLinuxPid }, tree)
  | none =>
    if linuxPid = root.linuxPid then
      if existing.any fun known => known.processStartTimeTicks ≠ 0 then none
      else
        let value : HoloUvLinuxProcessSourceV1 :=
          { root with parentLinuxPid, processStartTimeTicks, rootLinuxPid := root.linuxPid }
        some (value, Function.update tree linuxPid (some value))
    else
      let parent ← tree parentLinuxPid
      let value : HoloUvLinuxProcessSourceV1 :=
        { root with
          executableId := parent.executableId
          linuxPid
          parentLinuxPid
          processStartTimeTicks
          rootLinuxPid := root.linuxPid }
      some (value, Function.update tree linuxPid (some value))

end TablesV1

/-- The handlers an environment was made with. -/
structure HandlersV1 where
  filesystem : Bool
  capability : Bool
  networkAttribution : Bool
  execution : Bool
  deriving DecidableEq

/-- What a loop over frames has still to do. -/
inductive WorkV1 where
  | frame (frame : ProcessSupervisorFrameV1)
  | callback
  | sinkClose (processId : UInt32) (serial : ℕ)
  | remove (processId : UInt32)
  deriving DecidableEq

/-- What a handler is invoked for. -/
inductive JobKindV1 where
  | filesystem
  | capability
  | execution (caller : HoloUvLinuxProcessSourceV1)
  | network (source : HoloUvLinuxProcessSourceV1) (request : ProcessSupervisorNetworkRequestV1)
  deriving DecidableEq

/-- How far the promises of a job have come. -/
inductive PhaseV1 where
  | queued
  | handling
  | answering (allowed : Bool)
  /-- The answer was handed to the transport; a capability's error answer is its last. -/
  | writing (last : Bool)
  | failing (error : ErrorV1)
  | finished
  deriving DecidableEq

/-- A request of the guest that a handler serves. -/
structure JobV1 where
  kind : JobKindV1
  processId : UInt32
  requestId : UInt32
  phase : PhaseV1
  deriving DecidableEq

/-- What a handler returns. -/
inductive OutcomeV1 where
  | payload (bytes : List UInt8)
  | target (text : Text)
  | other
  /-- The handler threw or its promise was rejected. -/
  | rejected
  deriving DecidableEq

/-- How far `close` has come. -/
inductive ClosingV1 where
  | idle
  | waiting
  /-- The promise of `close` is settled or will be without a further step. -/
  | done
  deriving DecidableEq

/-- What `write` makes of a frame. -/
inductive WriteV1 where
  /-- The returned promise is rejected, nothing was handed over. -/
  | refused
  | threw (error : ErrorV1)
  | handed (bytes : List UInt8)
  deriving DecidableEq

/-- What a call asks the guest for. -/
structure CallV1 where
  kind : PendingKindV1
  operation : ProcessSupervisorOperationV1
  processId : UInt32
  payload : Except ErrorV1 (List UInt8)

/-- The commands to a process. -/
inductive CommandOperation where
  | signal | stdin | stdinClose
  deriving DecidableEq

def CommandOperation.name : CommandOperation → ProcessSupervisorOperationV1
  | .signal => .signal
  | .stdin => .stdin
  | .stdinClose => .stdinClose

/-- What a command is given. -/
inductive CommandPayload where
  | text (value : Text)
  | bytes (value : List UInt8)
  | other
  deriving DecidableEq

/-- The environment. -/
structure HoloUvSupervisorEnvironmentV1 where
  tables : TablesV1
  decoder : ProcessSupervisorFrameDecoderV1
  kernelCapabilities : Option (List Text)
  readyReceived : Bool
  nextRequestId : UInt32
  attached : Bool
  closing : ClosingV1
  created : ℕ
  loops : List (List WorkV1)
  jobs : List JobV1

structure ReceivedV1 where
  environment : HoloUvSupervisorEnvironmentV1
  work : List WorkV1
  thrown : Option ErrorV1

namespace HoloUvSupervisorEnvironmentV1

def new : HoloUvSupervisorEnvironmentV1 where
  tables := .new
  decoder := .new
  kernelCapabilities := none
  readyReceived := false
  nextRequestId := 1
  attached := false
  closing := .idle
  created := 0
  loops := []
  jobs := []

variable (environment : HoloUvSupervisorEnvironmentV1)

def done : ReceivedV1 := ⟨environment, [], none⟩

/-- A sink is called last. -/
def calls : ReceivedV1 := ⟨environment, [.callback], none⟩

def throws (error : ErrorV1) : ReceivedV1 := ⟨environment, [], some error⟩

def put (tables : TablesV1) : HoloUvSupervisorEnvironmentV1 := { environment with tables }

/-- A handler is to be invoked. -/
def enqueue (kind : JobKindV1) (frame : ProcessSupervisorFrameV1) :
    HoloUvSupervisorEnvironmentV1 :=
  { environment with jobs :=
      environment.jobs ++ [⟨kind, frame.processId, frame.requestId, .queued⟩] }

def write (operation : ProcessSupervisorOperationV1) (processId requestId : UInt32)
    (payload : Except ErrorV1 (List UInt8)) (transportThrows : Bool) : WriteV1 :=
  match payload with
  | .error error => .threw error
  | .ok payload =>
    if environment.tables.closed ∨ environment.attached = false then .refused
    else
      match encodeProcessSupervisorFrameV1
          (frameObject operation payload processId.toNat requestId.toNat 0) with
      | none => .threw frameError
      | some bytes => if transportThrows then .threw .thrown else .handed bytes

section Calls

def spawn (request : ProcessBackendSpawnRequestV1) : Option CallV1 :=
  if environment.tables.closed then none
  else some ⟨.spawn request.executableId request.processResourceId, .spawn, 0,
    orThrow payloadError (encodeHoloUvSpawnPayloadV1 request)⟩

def commandPayload : CommandOperation → CommandPayload → Except ErrorV1 (List UInt8)
  | .signal, .text signal => orThrow payloadError (encodeHoloUvSignalPayloadV1 signal)
  | .stdin, .bytes chunk => .ok chunk
  | .stdinClose, _ => .ok []
  | _, _ => .error (.typeError (js "Invalid HoloUV supervisor command"))

def command (operation : CommandOperation) (processId : UInt32) (payload : CommandPayload) :
    Option CallV1 :=
  if environment.tables.closed ∨ environment.tables.processes processId = none then none
  else some ⟨.command processId, operation.name, processId, commandPayload operation payload⟩

def configure (payload : Option (List UInt8)) (aborted : Bool) : Option CallV1 :=
  match payload with
  | none => none
  | some payload =>
    if environment.tables.closed ∨ environment.readyReceived = false ∨ aborted then none
    else some ⟨.configuration, .configure, 0, .ok payload⟩

def promise (call : CallV1) (transportThrows : Bool) : TerminalV1 :=
  match environment.write call.operation call.processId environment.nextRequestId call.payload
      transportThrows with
  | .refused => ⟨environment.nextRequestId, true, none, true, none⟩
  | .threw _ => ⟨environment.nextRequestId, false, none, false, none⟩
  | .handed bytes => ⟨environment.nextRequestId, true, some bytes, true, none⟩

def allocateRequestId : HoloUvSupervisorEnvironmentV1 :=
  { environment with nextRequestId :=
      if environment.nextRequestId = 0xFFFFFFFF then 1 else environment.nextRequestId + 1 }

/-- What `spawn`, `command` and `configure` share: take the next request id, which must be free,
enter the request, and then make the payload and write the frame. -/
def request (call : CallV1) (transportThrows : Bool) : HoloUvSupervisorEnvironmentV1 :=
  let next := environment.allocateRequestId
  if (environment.tables.pending environment.nextRequestId).isSome then next
  else next.put (environment.tables.request call.kind (environment.promise call transportThrows))

end Calls

section Frames

variable (frame : ProcessSupervisorFrameV1)

def answeredBy (processId : UInt32) : PendingKindV1 → Bool
  | .command expected => expected = processId
  | .configuration => processId = 0
  | .spawn _ _ => true

def receiveReady : ReceivedV1 :=
  if environment.readyReceived then environment.throws protocolError
  else
    let next := { environment with readyReceived := true }
    match decodeProcessSupervisorReadyPayloadV1 frame.payload with
    | none => next.throws frameError
    | some offered => { next with kernelCapabilities := some offered }.done

def receiveAck (pending : Option PendingV1) : ReceivedV1 :=
  match requireEmptyHoloUvPayloadV1 frame.payload, pending with
  | none, _ => environment.throws payloadError
  | some _, none => environment.throws protocolError
  | some _, some ⟨.spawn _ _, _⟩ => environment.throws protocolError
  | some _, some entry =>
    if answeredBy frame.processId entry.kind then
      (environment.put (environment.tables.settle frame.requestId entry .resolved)).done
    else environment.throws protocolError

def receiveError (pending : Option PendingV1) : ReceivedV1 :=
  match decodeHoloUvErrorPayloadV1 frame.payload with
  | none => environment.throws payloadError
  | some code =>
    match pending with
    | some entry =>
      if answeredBy frame.processId entry.kind then
        (environment.put
          (environment.tables.settle frame.requestId entry (.rejected (.reported code)))).done
      else environment.throws protocolError
    | none =>
      if (environment.tables.processes frame.processId).any fun process => !process.closed then
        environment.calls
      else environment.done

def receiveSpawned (pending : Option PendingV1) : ReceivedV1 :=
  match pending with
  | some ⟨.spawn executableId processResourceId, terminal⟩ =>
    match decodeHoloUvSpawnedPayloadV1 frame.payload frame.processId with
    | none => environment.throws payloadError
    | some linuxPid =>
      if (environment.tables.processes frame.processId).isSome then
        environment.throws protocolError
      else
        ({ environment with created := environment.created + 1 }.put
          (environment.tables.spawned frame.requestId frame.processId
            ⟨.spawn executableId processResourceId, terminal⟩
            ⟨executableId, linuxPid, processResourceId⟩ environment.created)).done
  | _ => environment.throws protocolError

/-- A process asks for a file. -/
def receiveFilesystem (handlers : HandlersV1) : ReceivedV1 :=
  if handlers.filesystem then (environment.enqueue .filesystem frame).done
  else environment.throws (.failure (js "supervisor.filesystem_unavailable"))

def writes (operation : ProcessSupervisorOperationV1) (payload : Except ErrorV1 (List UInt8))
    (transportThrows : Bool) : ReceivedV1 :=
  match environment.write operation frame.processId frame.requestId payload transportThrows with
  | .threw error => environment.throws error
  | _ => environment.done

/-- A process asks for a capability. -/
def receiveCapability (handlers : HandlersV1) (transportThrows : Bool) : ReceivedV1 :=
  if handlers.capability then (environment.enqueue .capability frame).done
  else environment.writes frame .capabilityResponse
    (orThrow payloadError (capabilityErrorPayload (js "bridge.unavailable"))) transportThrows

/-- A process asks to run a program. -/
def receiveExecution (handlers : HandlersV1) : ReceivedV1 :=
  if handlers.execution = false then
    environment.throws (.failure (js "supervisor.execution_gate_unavailable"))
  else
    match environment.tables.processSource frame.processId with
    | none => environment.throws protocolError
    | some source =>
      match decodeProcessSupervisorExecRequestV1 frame.payload with
      | none => environment.throws (.typeError (js "Invalid Process supervisor exec payload"))
      | some request =>
        match environment.tables.resolveLinuxProcessSource frame.processId source
            request.linuxPid request.parentLinuxPid request.processStartTimeTicks with
        | none => environment.throws (.failure (js "supervisor.process_attribution_unavailable"))
        | some (caller, tree) =>
          ((environment.put (environment.tables.plant frame.processId tree)).enqueue
            (.execution caller) frame).done

/-- A program was replaced, or not. -/
def receiveExecutionResult : ReceivedV1 :=
  match decodeProcessSupervisorExecResultV1 frame.payload with
  | none => environment.throws (.typeError (js "Invalid Process supervisor exec payload"))
  | some committed =>
    match environment.tables.pendingExecutionCommits frame.requestId with
    | none => if committed then environment.throws protocolError else environment.done
    | some pending =>
      if pending.processId ≠ frame.processId then environment.throws protocolError
      else
        let tables := environment.tables.commit frame.requestId none
        if committed = false then (environment.put tables).done
        else
          match tables.linuxProcessSources frame.processId with
          | none => (environment.put tables).done
          | some tree =>
            (environment.put (tables.plant frame.processId
              (Function.update tree pending.caller.linuxPid
                (some { pending.caller with executableId := pending.targetExecutableId })))).done

/-- A process asks for a connection. -/
def receiveNetworkAttribution (handlers : HandlersV1) (transportThrows : Bool) : ReceivedV1 :=
  match decodeProcessSupervisorNetworkRequestV1 frame.payload with
  | none => environment.throws (.typeError (js "Invalid Process supervisor network payload"))
  | some request =>
    match environment.tables.processSource frame.processId with
    | none => environment.throws protocolError
    | some root =>
      match environment.tables.resolveLinuxProcessSource frame.processId root
          request.linuxPid request.parentLinuxPid request.processStartTimeTicks with
      | none => environment.throws (.failure (js "supervisor.process_attribution_unavailable"))
      | some (source, tree) =>
        let next := environment.put (environment.tables.plant frame.processId tree)
        if handlers.networkAttribution then (next.enqueue (.network source request) frame).done
        else next.writes frame .networkResponse
          (.ok (encodeProcessSupervisorNetworkResponseV1 false)) transportThrows

def receiveStream (process : HoloUvSupervisorProcessV1) : ReceivedV1 :=
  let expected := if frame.operation = .stdout then process.stdout else process.stderr
  if process.closed ∨ frame.sequence.toNat ≠ expected then
    environment.throws (.typeError (js "Invalid HoloUV supervisor stream sequence"))
  else
    let moved := if frame.operation = .stdout then { process with stdout := process.stdout + 1 }
      else { process with stderr := process.stderr + 1 }
    (environment.put (environment.tables.touch frame.processId moved)).calls

/-- The program of a process has ended. -/
def receiveExit (process : HoloUvSupervisorProcessV1) : ReceivedV1 :=
  if process.exited then environment.done
  else (environment.put
    (environment.tables.touch frame.processId { process with exited := true })).calls

def receiveClose (process : HoloUvSupervisorProcessV1) : ReceivedV1 :=
  if process.closed then ⟨environment, [.remove frame.processId], none⟩
  else if process.exited then
    ⟨environment, [.sinkClose frame.processId process.serial, .remove frame.processId], none⟩
  else
    ⟨environment.put (environment.tables.touch frame.processId { process with exited := true }),
      [.callback, .sinkClose frame.processId process.serial, .remove frame.processId], none⟩

def receiveProcess : ReceivedV1 :=
  match environment.tables.processes frame.processId with
  | none => environment.throws protocolError
  | some process =>
    match frame.operation with
    | .stdout => environment.receiveStream frame process
    | .stderr => environment.receiveStream frame process
    | .exit =>
      if (decodeHoloUvCompletionPayloadV1 frame.payload).isSome then
        environment.receiveExit frame process
      else environment.throws payloadError
    | .close =>
      if (decodeHoloUvCompletionPayloadV1 frame.payload).isSome then
        environment.receiveClose frame process
      else environment.throws payloadError
    | _ => environment.throws protocolError

def receiveFrame (handlers : HandlersV1) (transportThrows : Bool) : ReceivedV1 :=
  if frame.operation = .ready then environment.receiveReady frame
  else if environment.readyReceived = false then environment.throws protocolError
  else
    match frame.operation with
    | .filesystemRequest => environment.receiveFilesystem frame handlers
    | .capabilityRequest => environment.receiveCapability frame handlers transportThrows
    | .execRequest => environment.receiveExecution frame handlers
    | .execResult => environment.receiveExecutionResult frame
    | .networkRequest => environment.receiveNetworkAttribution frame handlers transportThrows
    | .ack => environment.receiveAck frame (environment.tables.pending frame.requestId)
    | .spawned => environment.receiveSpawned frame (environment.tables.pending frame.requestId)
    | .error => environment.receiveError frame (environment.tables.pending frame.requestId)
    | _ => environment.receiveProcess frame

/-- A process is told of its end, unless another has taken its place in the table. -/
def tellClosed (processId : UInt32) (serial : ℕ) : HoloUvSupervisorEnvironmentV1 :=
  match environment.tables.processes processId with
  | none => environment
  | some process =>
    if process.serial = serial then
      environment.put (environment.tables.touch processId { process with closed := true })
    else environment

/-- What a loop does next, unless it waits for a sink. -/
def receiveWork (handlers : HandlersV1) (transportThrows : Bool) : WorkV1 → Option ReceivedV1
  | .frame frame => some (environment.receiveFrame frame handlers transportThrows)
  | .callback => none
  | .sinkClose processId serial => some (environment.tellClosed processId serial).calls
  | .remove processId => some (environment.put (environment.tables.remove processId)).done

end Frames

section Jobs

variable (index : ℕ) (job : JobV1)

/-- A job has come further. -/
def setPhase (phase : PhaseV1) : HoloUvSupervisorEnvironmentV1 :=
  { environment with jobs := environment.jobs.set index { job with phase } }

def Serves : Prop :=
  environment.tables.closed = false ∧ (environment.tables.processes job.processId).isSome
  deriving Decidable

/-- How writing an answer goes on. -/
def respond (operation : ProcessSupervisorOperationV1) (payload : Except ErrorV1 (List UInt8))
    (transportThrows last : Bool) : PhaseV1 :=
  match environment.write operation job.processId job.requestId payload transportThrows with
  | .threw error => .failing error
  | _ => .writing last

/-- A file handler is done. -/
def completeFilesystem (outcome : OutcomeV1) (transportThrows : Bool) : PhaseV1 :=
  match outcome with
  | .payload bytes =>
    if environment.tables.closed then .finished
    else environment.respond job .filesystemResponse (.ok bytes) transportThrows true
  | .rejected => .failing .thrown
  | _ => .failing protocolError

def completeCapability (outcome : OutcomeV1) (transportThrows : Bool) : PhaseV1 :=
  match outcome with
  | .payload bytes =>
    if environment.Serves job then
      match environment.respond job .capabilityResponse (.ok bytes) transportThrows false with
      | .failing _ => .answering false
      | phase => phase
    else .finished
  | _ => .answering false

/-- An execution handler is done: what it names is entered. -/
def completeExecution (caller : HoloUvLinuxProcessSourceV1) (outcome : OutcomeV1) :
    HoloUvSupervisorEnvironmentV1 :=
  match outcome with
  | .target text =>
    if text = [] then environment.setPhase index job (.failing protocolError)
    else
      (environment.put (environment.tables.commit job.requestId
        (some ⟨caller, job.processId, text⟩))).setPhase index job (.answering true)
  | .rejected => environment.setPhase index job (.answering false)
  | _ => environment.setPhase index job (.failing protocolError)

/-- A network handler is done: unless it refused, its connection is entered. -/
def completeNetwork (source : HoloUvLinuxProcessSourceV1)
    (request : ProcessSupervisorNetworkRequestV1) (outcome : OutcomeV1) (now : ℕ)
    (transportThrows : Bool) : HoloUvSupervisorEnvironmentV1 :=
  if outcome = .rejected then
    environment.setPhase index job (environment.respond job .networkResponse
      (.ok (encodeProcessSupervisorNetworkResponseV1 false)) transportThrows true)
  else
    let fresh := environment.tables.prune now
    if 64 ≤ fresh.networkAdmissions.length then
      (environment.put fresh).setPhase index job
        (.failing (.failure (js "supervisor.network_attribution_limit")))
    else
      (environment.put (fresh.record source request job.processId now)).setPhase index job
        (environment.respond job .networkResponse
          (.ok (encodeProcessSupervisorNetworkResponseV1 true)) transportThrows true)

/-- A handler is done. -/
def complete (outcome : OutcomeV1) (now : ℕ) (transportThrows : Bool) :
    HoloUvSupervisorEnvironmentV1 :=
  match job.kind with
  | .filesystem =>
    environment.setPhase index job (environment.completeFilesystem job outcome transportThrows)
  | .capability =>
    environment.setPhase index job (environment.completeCapability job outcome transportThrows)
  | .execution caller => environment.completeExecution index job caller outcome
  | .network source request =>
    environment.completeNetwork index job source request outcome now transportThrows

def answer (allowed transportThrows : Bool) : HoloUvSupervisorEnvironmentV1 :=
  if environment.Serves job then
    match job.kind with
    | .execution _ => environment.setPhase index job (environment.respond job .execResponse
        (.ok (encodeProcessSupervisorExecResponseV1 allowed)) transportThrows true)
    | _ => environment.setPhase index job (environment.respond job .capabilityResponse
        (orThrow payloadError (capabilityErrorPayload (js "bridge.failed"))) transportThrows true)
  else environment.setPhase index job .finished

/-- The transport did not write an answer. -/
def refuse (last : Bool) : HoloUvSupervisorEnvironmentV1 :=
  match job.kind with
  | .execution _ => (environment.put (environment.tables.commit job.requestId none)).setPhase
      index job (.failing .thrown)
  | _ => environment.setPhase index job (if last then .failing .thrown else .answering false)

end Jobs

end HoloUvSupervisorEnvironmentV1

/-- What happens at the host. -/
inductive ActionV1 where
  | attach
  /-- A timer, the transport or an aborted signal fails the connection. -/
  | fails (error : ErrorV1)
  | closes
  | closeContinues
  | spawns (request : ProcessBackendSpawnRequestV1)
  | commands (operation : CommandOperation) (processId : UInt32) (payload : CommandPayload)
  | configures (payload : Option (List UInt8)) (aborted : Bool)
  | consumes (address : Text) (port : ℕ) (transport : NetworkTransport) (now : ℕ)
  | receives (bytes : List UInt8)
  | continues
  /-- The sink that the innermost loop waits for returns or throws. -/
  | returns (threw : Bool)
  | starts (index : ℕ)
  | completes (index : ℕ) (outcome : OutcomeV1) (now : ℕ)
  | answers (index : ℕ)
  /-- The transport does not write the answer of a job. -/
  | refuses (index : ℕ)
  /-- What went wrong with a job fails the connection. -/
  | catches (index : ℕ)
  | writeSucceeds (index : ℕ)
  | writeFails (index : ℕ) (error : ErrorV1)

structure EventV1 where
  action : ActionV1
  transportThrows : Bool
  /-- Which processes had been told of their exit and of their end when a sink threw, if one
  throws. -/
  heard : Option (UInt32 → Bool × Bool)

/-- An event in which nothing throws. -/
def EventV1.calm (action : ActionV1) : EventV1 := ⟨action, false, none⟩

namespace HoloUvSupervisorEnvironmentV1

variable (environment : HoloUvSupervisorEnvironmentV1)

/-- Code of others runs: nothing is received, or a sink is waited for. -/
def outside : Bool :=
  match environment.loops with
  | [] => true
  | (.callback :: _) :: _ => true
  | _ => false

/-- Calls come when code of others runs, continuations of promises when nothing does. -/
def timely : ActionV1 → Bool
  | .continues | .returns _ => true
  | .closeContinues | .starts _ | .completes _ _ _ | .answers _ | .refuses _ | .catches _
  | .writeSucceeds _ | .writeFails _ _ => environment.loops.isEmpty
  | _ => environment.outside

def stack (work : List WorkV1) (loops : List (List WorkV1)) : List (List WorkV1) :=
  if work = [] then loops else work :: loops

def fail (error : ErrorV1) (heard : Option (UInt32 → Bool × Bool)) :
    HoloUvSupervisorEnvironmentV1 := environment.put (environment.tables.fail error heard)

def advance (received : ReceivedV1) (rest : List WorkV1) (loops : List (List WorkV1))
    (heard : Option (UInt32 → Bool × Bool)) : HoloUvSupervisorEnvironmentV1 :=
  match received.thrown with
  | some error => { received.environment with loops }.fail error heard
  | none => { received.environment with loops := stack (received.work ++ rest) loops }

def receive (bytes : List UInt8) (heard : Option (UInt32 → Bool × Bool)) :
    HoloUvSupervisorEnvironmentV1 :=
  if environment.tables.closed then environment
  else
    let (frames, decoder) := environment.decoder.push bytes
    match frames with
    | none => { environment with decoder }.fail frameError heard
    | some frames =>
      { environment with decoder, loops := stack (frames.map .frame) environment.loops }

def close (transportThrows : Bool) (heard : Option (UInt32 → Bool × Bool)) :
    HoloUvSupervisorEnvironmentV1 :=
  if environment.closing ≠ .idle ∨ environment.tables.closed then environment
  else if environment.attached = false then
    { environment with closing := .done }.fail closedError heard
  else
    match environment.write .shutdown 0 0 (.ok []) transportThrows with
    | .threw _ => { environment with closing := .done }
    | _ => { environment with closing := .waiting }

def ask (call : Option CallV1) (transportThrows : Bool) : HoloUvSupervisorEnvironmentV1 :=
  match call with
  | none => environment
  | some call => environment.request call transportThrows

def perform (handlers : HandlersV1) (event : EventV1) : Option HoloUvSupervisorEnvironmentV1 :=
  match event.action with
  | .attach => some { environment with attached := true }
  | .fails error => some (environment.fail error event.heard)
  | .closes => some (environment.close event.transportThrows event.heard)
  | .closeContinues =>
    if environment.closing = .waiting then
      some ({ environment with closing := .done }.fail closedError event.heard)
    else none
  | .spawns request => some (environment.ask (environment.spawn request) event.transportThrows)
  | .commands operation processId payload =>
    some (environment.ask (environment.command operation processId payload) event.transportThrows)
  | .configures payload aborted =>
    if environment.tables.closed = false ∧ environment.readyReceived ∧ payload.isSome ∧ aborted then
      some (environment.fail (.failure (js "supervisor.cancelled")) event.heard)
    else some (environment.ask (environment.configure payload aborted) event.transportThrows)
  | .consumes address port transport now =>
    some (environment.put (environment.tables.consumeNetworkAdmission address port transport now))
  | .receives bytes => some (environment.receive bytes event.heard)
  | .continues =>
    match environment.loops with
    | (item :: rest) :: loops =>
      (environment.receiveWork handlers event.transportThrows item).map fun received =>
        advance received rest loops event.heard
    | _ => none
  | .returns threw =>
    match environment.loops with
    | (.callback :: rest) :: loops =>
      some (advance (if threw then environment.throws .thrown else environment.done) rest loops
        event.heard)
    | _ => none
  | .starts index =>
    (environment.jobs[index]?.filter fun job => job.phase = .queued).map fun job =>
      (environment.put (environment.tables.invoke index)).setPhase index job .handling
  | .completes index outcome now =>
    (environment.jobs[index]?.filter fun job => job.phase = .handling).map fun job =>
      environment.complete index job outcome now event.transportThrows
  | .answers index =>
    environment.jobs[index]?.bind fun job =>
      match job.phase with
      | .answering allowed => some (environment.answer index job allowed event.transportThrows)
      | _ => none
  | .refuses index =>
    environment.jobs[index]?.bind fun job =>
      match job.phase with
      | .writing last => some (environment.refuse index job last)
      | _ => none
  | .catches index =>
    environment.jobs[index]?.bind fun job =>
      match job.phase with
      | .failing error => some ((environment.setPhase index job .finished).fail error event.heard)
      | _ => none
  | .writeSucceeds index =>
    (environment.tables.terminals[index]?.filter fun terminal => terminal.writing).map
      fun terminal => environment.put (environment.tables.writeSucceeded index terminal)
  | .writeFails index error =>
    (environment.tables.terminals[index]?.filter fun terminal => terminal.writing).map
      fun terminal => environment.put (environment.tables.writeFailed index terminal error)

/-- What an event makes of the environment, unless it cannot happen now. -/
def step (handlers : HandlersV1) (event : EventV1) : Option HoloUvSupervisorEnvironmentV1 :=
  if environment.timely event.action then environment.perform handlers event else none

end HoloUvSupervisorEnvironmentV1

def supervisorMachine (handlers : HandlersV1) :
    Machine HoloUvSupervisorEnvironmentV1 EventV1 where
  start := .new
  step environment event := environment.step handlers event

end Holonomy.Supervisor
