import Holonomy.Supervisor.Environment

/-!
# What an event makes of the tables

An event makes one of a few moves on the tables and may then fail the connection. Whatever is to
hold of the tables in every state is shown move by move.
-/

namespace Holonomy.Supervisor

open Foundation

namespace HoloUvSupervisorEnvironmentV1

variable (environment : HoloUvSupervisorEnvironmentV1) (event : EventV1)

def asks : ActionV1 → Option CallV1
  | .spawns request => environment.spawn request
  | .commands operation processId payload => environment.command operation processId payload
  | .configures payload aborted => environment.configure payload aborted
  | _ => none

def hears : ActionV1 → Option ProcessSupervisorFrameV1
  | .continues =>
    match environment.loops with
    | (.frame frame :: _) :: _ => some frame
    | _ => none
  | _ => none

/-- The job whose handler is done, with what the handler returned and when. -/
def completed : ActionV1 → Option (JobV1 × OutcomeV1 × ℕ)
  | .completes index outcome now => environment.jobs[index]?.map fun job => (job, outcome, now)
  | _ => none

/-- A handler that is done grants something: it names a program to run, or it did not refuse a
connection and there is room for its admission. -/
def Grants (job : JobV1) (outcome : OutcomeV1) (now : ℕ) : Prop :=
  match job.kind, outcome with
  | .execution _, .target text => text ≠ []
  | .network _ _, .rejected => False
  | .network _ _, _ => (environment.tables.prune now).networkAdmissions.length < 64
  | _, _ => False

instance grantsDecidable (job : JobV1) (outcome : OutcomeV1) (now : ℕ) :
    Decidable (environment.Grants job outcome now) := by
  unfold Grants
  split <;> infer_instance

inductive Moves : TablesV1 → Prop where
  | stays : Moves environment.tables
  | requests (call : CallV1) (asked : environment.asks event.action = some call)
    (free : environment.tables.pending environment.nextRequestId = none) :
    Moves (environment.tables.request call.kind (environment.promise call event.transportThrows))
  | writeSucceeds (index : ℕ) (terminal : TerminalV1)
    (found : environment.tables.terminals[index]? = some terminal) :
    Moves (environment.tables.writeSucceeded index terminal)
  | writeFails (index : ℕ) (terminal : TerminalV1) (error : ErrorV1)
    (named : event.action = .writeFails index error)
    (found : environment.tables.terminals[index]? = some terminal) :
    Moves (environment.tables.writeFailed index terminal error)
  | settles (requestId : UInt32) (entry : PendingV1) (settlement : SettlementV1)
    (found : environment.tables.pending requestId = some entry) :
    Moves (environment.tables.settle requestId entry settlement)
  | spawns (requestId processId : UInt32) (entry : PendingV1) (source : HoloUvProcessSourceV1)
    (serial : ℕ) (found : environment.tables.pending requestId = some entry) :
    Moves (environment.tables.spawned requestId processId entry source serial)
  | touches (processId : UInt32) (process : HoloUvSupervisorProcessV1)
    (known : (environment.tables.processes processId).isSome = true) :
    Moves (environment.tables.touch processId process)
  | removes (processId : UInt32) : Moves (environment.tables.remove processId)
  | plants (frame : ProcessSupervisorFrameV1)
    (tree : UInt32 → Option HoloUvLinuxProcessSourceV1)
    (heard : environment.hears event.action = some frame)
    (asked : frame.operation = .execRequest ∨ frame.operation = .networkRequest)
    (known : (environment.tables.processSource frame.processId).isSome = true) :
    Moves (environment.tables.plant frame.processId tree)
  | grants (job : JobV1) (outcome : OutcomeV1) (now : ℕ) (caller : HoloUvLinuxProcessSourceV1)
    (text : Text) (done : environment.completed event.action = some (job, outcome, now))
    (granted : environment.Grants job outcome now) :
    Moves (environment.tables.commit job.requestId (some ⟨caller, job.processId, text⟩))
  | revokes (requestId : UInt32) : Moves (environment.tables.commit requestId none)
  | replaces (requestId processId : UInt32) (commit : PendingExecutionCommitV1)
    (tree : UInt32 → Option HoloUvLinuxProcessSourceV1)
    (found : environment.tables.pendingExecutionCommits requestId = some commit) :
    Moves ((environment.tables.commit requestId none).plant processId tree)
  | prunes (now : ℕ) : Moves (environment.tables.prune now)
  | admits (job : JobV1) (outcome : OutcomeV1) (now : ℕ) (source : HoloUvLinuxProcessSourceV1)
    (request : ProcessSupervisorNetworkRequestV1)
    (done : environment.completed event.action = some (job, outcome, now))
    (granted : environment.Grants job outcome now) :
    Moves ((environment.tables.prune now).record source request job.processId now)
  | consumes (address : Text) (port : ℕ) (transport : NetworkTransport) (now : ℕ) :
    Moves (environment.tables.consumeNetworkAdmission address port transport now)
  | invokes (index : ℕ) (named : event.action = .starts index) :
    Moves (environment.tables.invoke index)

variable {environment event}

section Frames

variable {frame : ProcessSupervisorFrameV1} {handlers : HandlersV1} {throwing : Bool}

theorem moves_receiveReady :
    environment.Moves event (environment.receiveReady frame).environment.tables := by
  unfold receiveReady
  split
  · exact .stays
  · simp only
    split
    · exact .stays
    · exact .stays

theorem moves_receiveAck :
    environment.Moves event (environment.receiveAck frame
      (environment.tables.pending frame.requestId)).environment.tables := by
  unfold receiveAck
  split
  · exact .stays
  · exact .stays
  · exact .stays
  · rename_i entry _ _ found
    split
    · exact .settles frame.requestId entry .resolved found
    · exact .stays

theorem moves_receiveError :
    environment.Moves event (environment.receiveError frame
      (environment.tables.pending frame.requestId)).environment.tables := by
  unfold receiveError
  split
  · exact .stays
  · rename_i code _
    split
    · rename_i entry found
      split
      · exact .settles frame.requestId entry (.rejected (.reported code)) found
      · exact .stays
    · split
      · exact .stays
      · exact .stays

theorem moves_receiveSpawned :
    environment.Moves event (environment.receiveSpawned frame
      (environment.tables.pending frame.requestId)).environment.tables := by
  unfold receiveSpawned
  split
  · rename_i found
    split
    · exact .stays
    · split
      · exact .stays
      · exact .spawns frame.requestId frame.processId _ _ environment.created found
  · exact .stays

theorem moves_receiveFilesystem :
    environment.Moves event (environment.receiveFilesystem frame handlers).environment.tables := by
  unfold receiveFilesystem
  split
  · exact .stays
  · exact .stays

@[simp]
theorem tables_writes (operation : ProcessSupervisorOperationV1)
    (payload : Except ErrorV1 (List UInt8)) :
    (environment.writes frame operation payload throwing).environment = environment := by
  unfold writes
  split
  · rfl
  · rfl

theorem moves_receiveCapability :
    environment.Moves event
      (environment.receiveCapability frame handlers throwing).environment.tables := by
  unfold receiveCapability
  split
  · exact .stays
  · rw [tables_writes]
    exact .stays

theorem moves_receiveExecution (heard : environment.hears event.action = some frame)
    (asked : frame.operation = .execRequest) :
    environment.Moves event (environment.receiveExecution frame handlers).environment.tables := by
  unfold receiveExecution
  split
  · exact .stays
  · split
    · exact .stays
    · rename_i source sourced
      have known : (environment.tables.processSource frame.processId).isSome = true := by
        rw [sourced]
        rfl
      split
      · exact .stays
      · split
        · exact .stays
        · rename_i caller tree _
          exact .plants frame tree heard (.inl asked) known

theorem moves_receiveExecutionResult :
    environment.Moves event (environment.receiveExecutionResult frame).environment.tables := by
  unfold receiveExecutionResult
  split
  · exact .stays
  · split
    · split
      · exact .stays
      · exact .stays
    · rename_i pending found
      split
      · exact .stays
      · simp only
        split
        · exact .revokes frame.requestId
        · split
          · exact .revokes frame.requestId
          · exact .replaces frame.requestId frame.processId pending _ found

theorem moves_receiveNetworkAttribution (heard : environment.hears event.action = some frame)
    (asked : frame.operation = .networkRequest) :
    environment.Moves event
      (environment.receiveNetworkAttribution frame handlers throwing).environment.tables := by
  unfold receiveNetworkAttribution
  split
  · exact .stays
  · split
    · exact .stays
    · rename_i root rooted
      have known : (environment.tables.processSource frame.processId).isSome = true := by
        rw [rooted]
        rfl
      split
      · exact .stays
      · rename_i source tree _
        simp only
        split
        · exact .plants frame tree heard (.inr asked) known
        · rw [tables_writes]
          exact .plants frame tree heard (.inr asked) known

theorem moves_receiveProcess :
    environment.Moves event (environment.receiveProcess frame).environment.tables := by
  unfold receiveProcess
  split
  · exact .stays
  · rename_i process found
    have known : (environment.tables.processes frame.processId).isSome = true := by
      rw [found]
      rfl
    have stream : environment.Moves event
        (environment.receiveStream frame process).environment.tables := by
      unfold receiveStream
      simp only
      by_cases refused : process.closed = true ∨ frame.sequence.toNat ≠
          if frame.operation = .stdout then process.stdout else process.stderr
      · rw [if_pos refused]
        exact .stays
      · rw [if_neg refused]
        exact .touches frame.processId _ known
    split
    · exact stream
    · exact stream
    · unfold receiveExit
      split
      · split
        · exact .stays
        · exact .touches frame.processId _ known
      · exact .stays
    · unfold receiveClose
      split
      · split
        · exact .stays
        · split
          · exact .stays
          · exact .touches frame.processId _ known
      · exact .stays
    · exact .stays

theorem moves_receiveFrame (heard : environment.hears event.action = some frame) :
    environment.Moves event
      (environment.receiveFrame frame handlers throwing).environment.tables := by
  unfold receiveFrame
  split
  · exact moves_receiveReady
  · split
    · exact .stays
    · split
      · exact moves_receiveFilesystem
      · exact moves_receiveCapability
      · rename_i asked
        exact moves_receiveExecution heard asked
      · exact moves_receiveExecutionResult
      · rename_i asked
        exact moves_receiveNetworkAttribution heard asked
      · exact moves_receiveAck
      · exact moves_receiveSpawned
      · exact moves_receiveError
      · exact moves_receiveProcess

end Frames

section Jobs

variable (index : ℕ) (job : JobV1)

/-- A handler that is done makes a move. -/
theorem moves_complete {outcome : OutcomeV1} {now : ℕ} {throwing : Bool}
    (named : event.action = .completes index outcome now)
    (found : environment.jobs[index]? = some job) :
    environment.Moves event (environment.complete index job outcome now throwing).tables := by
  have done : environment.completed event.action = some (job, outcome, now) := by
    rw [named, completed, found]
    rfl
  unfold complete
  split
  · exact .stays
  · exact .stays
  · rename_i caller kind
    unfold completeExecution
    split
    · rename_i text
      by_cases told : text = []
      · rw [if_pos told]
        exact .stays
      · rw [if_neg told]
        refine .grants job (.target text) now caller text done ?_
        unfold Grants
        rw [kind]
        exact told
    · exact .stays
    · exact .stays
  · rename_i source request kind
    unfold completeNetwork
    by_cases refused : outcome = .rejected
    · rw [if_pos refused]
      exact .stays
    · rw [if_neg refused]
      by_cases full : 64 ≤ (environment.tables.prune now).networkAdmissions.length
      · rw [if_pos full]
        exact .prunes now
      · rw [if_neg full]
        have room : (environment.tables.prune now).networkAdmissions.length < 64 := by omega
        refine .admits job outcome now source request done ?_
        unfold Grants
        rw [kind]
        cases outcome with
        | rejected => exact absurd rfl refused
        | _ => exact room

theorem moves_answer (allowed throwing : Bool) :
    environment.Moves event (environment.answer index job allowed throwing).tables := by
  unfold answer
  split
  · split
    · exact .stays
    · exact .stays
  · exact .stays

theorem moves_refuse (last : Bool) :
    environment.Moves event (environment.refuse index job last).tables := by
  unfold refuse
  split
  · exact .revokes job.requestId
  · exact .stays

end Jobs

/-- The state is the end of a move, or the connection failed behind it. -/
def Settled (environment : HoloUvSupervisorEnvironmentV1) (event : EventV1)
    (after : TablesV1) : Prop :=
  ∃ moved, environment.Moves event moved ∧
    (after = moved ∨ ∃ error heard, after = moved.fail error heard)

theorem Moves.alone {after : TablesV1} (moves : environment.Moves event after) :
    Settled environment event after :=
  ⟨after, moves, .inl rfl⟩

theorem Moves.thenFails {moved : TablesV1} (moves : environment.Moves event moved)
    (error : ErrorV1) (heard : Option (UInt32 → Bool × Bool)) :
    Settled environment event (moved.fail error heard) :=
  ⟨moved, moves, .inr ⟨error, heard, rfl⟩⟩

theorem settled_advance {received : ReceivedV1} {rest : List WorkV1} {loops : List (List WorkV1)}
    {heard : Option (UInt32 → Bool × Bool)}
    (moves : environment.Moves event received.environment.tables) :
    Settled environment event (advance received rest loops heard).tables := by
  unfold advance
  split
  · rename_i error _
    exact moves.thenFails error heard
  · exact moves.alone

theorem settled_ask {call : Option CallV1} (asked : environment.asks event.action = call) :
    Settled environment event (environment.ask call event.transportThrows).tables := by
  unfold ask
  split
  · exact Moves.stays.alone
  · rename_i request
    unfold HoloUvSupervisorEnvironmentV1.request
    simp only
    by_cases taken : (environment.tables.pending environment.nextRequestId).isSome = true
    · rw [if_pos taken]
      exact Moves.stays.alone
    · rw [if_neg taken]
      have free : environment.tables.pending environment.nextRequestId = none :=
        Option.not_isSome_iff_eq_none.mp taken
      exact (Moves.requests request asked free).alone

theorem settled_of_step {handlers : HandlersV1} {next : HoloUvSupervisorEnvironmentV1}
    (stepped : environment.step handlers event = some next) :
    Settled environment event next.tables := by
  unfold step at stepped
  split at stepped
  case isFalse => cases stepped
  unfold perform at stepped
  cases named : event.action with
  | attach =>
    simp only [named, Option.some.injEq] at stepped
    subst stepped
    exact Moves.stays.alone
  | fails error =>
    simp only [named, Option.some.injEq] at stepped
    subst stepped
    exact Moves.stays.thenFails error event.heard
  | closes =>
    simp only [named, Option.some.injEq] at stepped
    subst stepped
    unfold close
    split
    · exact Moves.stays.alone
    · split
      · exact Moves.stays.thenFails closedError event.heard
      · split
        · exact Moves.stays.alone
        · exact Moves.stays.alone
  | closeContinues =>
    simp only [named] at stepped
    split at stepped
    · cases stepped
      exact Moves.stays.thenFails closedError event.heard
    · cases stepped
  | configures payload aborted =>
    simp only [named] at stepped
    split at stepped
    · cases stepped
      exact Moves.stays.thenFails (.failure (js "supervisor.cancelled")) event.heard
    · cases stepped
      exact settled_ask (by rw [named]; rfl)
  | consumes address port transport now =>
    simp only [named, Option.some.injEq] at stepped
    subst stepped
    exact (Moves.consumes address port transport now).alone
  | receives bytes =>
    simp only [named, Option.some.injEq] at stepped
    subst stepped
    unfold receive
    split
    · exact Moves.stays.alone
    · simp only
      split
      · exact Moves.stays.thenFails frameError event.heard
      · exact Moves.stays.alone
  | continues =>
    simp only [named] at stepped
    split at stepped
    · rename_i item rest loops stacked
      rw [Option.map_eq_some_iff] at stepped
      obtain ⟨received, worked, advanced⟩ := stepped
      subst advanced
      apply settled_advance
      cases item with
      | frame frame =>
        cases worked
        apply moves_receiveFrame
        rw [named, hears, stacked]
      | callback => cases worked
      | sinkClose processId serial =>
        cases worked
        show environment.Moves event (environment.tellClosed processId serial).tables
        unfold tellClosed
        split
        · exact .stays
        · rename_i process found
          split
          · exact .touches processId _ (by rw [found]; rfl)
          · exact .stays
      | remove processId =>
        cases worked
        exact .removes processId
    · cases stepped
  | returns threw =>
    simp only [named] at stepped
    split at stepped
    · cases stepped
      apply settled_advance
      split
      · exact .stays
      · exact .stays
    · cases stepped
  | starts index =>
    simp only [named, Option.map_eq_some_iff] at stepped
    obtain ⟨job, _, started⟩ := stepped
    subst started
    exact (Moves.invokes index named).alone
  | completes index outcome now =>
    simp only [named, Option.map_eq_some_iff, Option.filter_eq_some_iff] at stepped
    obtain ⟨job, ⟨found, _⟩, completed⟩ := stepped
    subst completed
    exact (moves_complete index job named found).alone
  | answers index =>
    simp only [named, Option.bind_eq_some_iff] at stepped
    obtain ⟨job, _, answered⟩ := stepped
    split at answered
    · cases answered
      exact (moves_answer index job _ _).alone
    · cases answered
  | refuses index =>
    simp only [named, Option.bind_eq_some_iff] at stepped
    obtain ⟨job, _, refused⟩ := stepped
    split at refused
    · cases refused
      exact (moves_refuse index job _).alone
    · cases refused
  | catches index =>
    simp only [named, Option.bind_eq_some_iff] at stepped
    obtain ⟨job, _, caught⟩ := stepped
    split at caught
    · rename_i error _
      cases caught
      exact Moves.stays.thenFails error event.heard
    · cases caught
  | writeSucceeds index =>
    simp only [named, Option.map_eq_some_iff, Option.filter_eq_some_iff] at stepped
    obtain ⟨terminal, ⟨found, _⟩, written⟩ := stepped
    subst written
    exact (Moves.writeSucceeds index terminal found).alone
  | writeFails index error =>
    simp only [named, Option.map_eq_some_iff, Option.filter_eq_some_iff] at stepped
    obtain ⟨terminal, ⟨found, _⟩, failed⟩ := stepped
    subst failed
    exact (Moves.writeFails index terminal error named found).alone
  | _ =>
    simp only [named, Option.some.injEq] at stepped
    subst stepped
    exact settled_ask (by rw [named]; rfl)

end HoloUvSupervisorEnvironmentV1

end Holonomy.Supervisor
