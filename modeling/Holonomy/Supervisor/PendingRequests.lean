import Holonomy.Supervisor.Moves

/-!
# Pending requests

The pending requests are the outstanding ones as long as every call that gets to its request can
write it: the request is entered before its payload and its frame are made, and when making them
throws, the entry stays although the caller got no promise.
-/

namespace Holonomy.Supervisor

open Foundation

structure Outstanding (tables : TablesV1) : Prop where
  pending : ∀ requestId entry, tables.pending requestId = some entry →
    ∃ terminal, tables.terminals[entry.terminal]? = some terminal ∧
      terminal.requestId = requestId ∧ terminal.returned = true ∧ terminal.settlement = none ∧
      ∃ frame : ProcessSupervisorFrameV1, frame.requestId = requestId ∧
        terminal.handed = some (frameBytes frame)
  awaited : ∀ index terminal, tables.terminals[index]? = some terminal →
    terminal.returned = true → terminal.settlement = none → tables.Awaited index terminal
  ended : tables.closed = true → ∀ requestId, tables.pending requestId = none

/-- Settled promises stay as they are. -/
def KeepsSettled (before after : TablesV1) : Prop :=
  ∀ (index : ℕ) (terminal : TerminalV1) (settlement : SettlementV1),
    before.terminals[index]? = some terminal → terminal.settlement = some settlement →
      ∃ later, after.terminals[index]? = some later ∧ later.settlement = some settlement

namespace HoloUvSupervisorEnvironmentV1

variable (environment : HoloUvSupervisorEnvironmentV1) (event : EventV1)

def Writable (call : CallV1) (transportThrows : Bool) : Prop :=
  environment.attached = true ∧ transportThrows = false ∧
    ∃ payload ∈ call.payload.toOption, (encodeProcessSupervisorFrameV1
      (frameObject call.operation payload call.processId.toNat environment.nextRequestId.toNat
        0)).isSome = true

instance (call : CallV1) (transportThrows : Bool) :
    Decidable (environment.Writable call transportThrows) :=
  inferInstanceAs (Decidable (_ ∧ _ ∧ ∃ payload ∈ call.payload.toOption, _))

/-- The promise whose frame is reported as not written. -/
def unwritten : ActionV1 → Option ℕ
  | .writeFails index _ => some index
  | _ => none

def Orderly : Prop :=
  (∀ call ∈ environment.asks event.action,
    environment.tables.pending environment.nextRequestId = none →
      environment.Writable call event.transportThrows) ∧
  ∀ index ∈ unwritten event.action, ∀ terminal ∈ environment.tables.terminals[index]?,
    ∀ entry ∈ environment.tables.pending terminal.requestId, entry.terminal = index
  deriving Decidable

def Answers (next : HoloUvSupervisorEnvironmentV1) : Prop :=
  ∀ call, environment.asks event.action = some call →
    (∃ terminal, next.tables.terminals = environment.tables.terminals ++ [terminal] ∧
      terminal.returned = true) ∨ next.tables.pending = environment.tables.pending

structure ExactlyPending (handlers : HandlersV1)
    (allowed : HoloUvSupervisorEnvironmentV1 → EventV1 → Prop) : Prop where
  outstanding : Outstanding environment.tables
  settled : environment.tables.closed = true → ∀ terminal ∈ environment.tables.terminals,
    terminal.returned = true → terminal.settlement ≠ none
  steps : ∀ event next, allowed environment event → environment.step handlers event = some next →
    KeepsSettled environment.tables next.tables ∧ environment.Answers event next

end HoloUvSupervisorEnvironmentV1

@[simp]
theorem TerminalV1.settlement_settle (terminal : TerminalV1) (settlement : SettlementV1) :
    (terminal.settle settlement).settlement = some (terminal.settlement.getD settlement) := rfl

theorem TerminalV1.settle_of_settled {terminal : TerminalV1} {settlement : SettlementV1}
    (settled : terminal.settlement = some settlement) (other : SettlementV1) :
    (terminal.settle other).settlement = some settlement := by
  rw [TerminalV1.settlement_settle, settled]
  rfl

theorem requestId_of_encoded {operation : ProcessSupervisorOperationV1} {payload bytes : List UInt8}
    {processId requestId : UInt32}
    (encoded : encodeProcessSupervisorFrameV1
      (frameObject operation payload processId.toNat requestId.toNat 0) = some bytes) :
    ∃ frame : ProcessSupervisorFrameV1, frame.requestId = requestId ∧ bytes = frameBytes frame := by
  have named := normalize_frameObject operation payload (show processId.toNat < 256 ^ 4 from
    processId.toNat_lt) (show requestId.toNat < 256 ^ 4 from requestId.toNat_lt)
    (show 0 < 256 ^ 4 by decide)
  rw [encodeProcessSupervisorFrameV1, named] at encoded
  simp only [UInt32.ofNat_toNat] at encoded
  split at encoded
  · cases encoded
  · rw [Option.bind_eq_bind, Option.bind_some] at encoded
    split at encoded
    · cases encoded
    · exact ⟨_, rfl, (Option.some.inj encoded).symm⟩

section Tables

variable {before after : TablesV1}

variable {index : ℕ} {terminal later : TerminalV1}

theorem keepsSettled_of_same (same : after.terminals = before.terminals) :
    KeepsSettled before after := by
  intro index terminal settlement found settled
  rw [same]
  exact ⟨terminal, found, settled⟩

theorem KeepsSettled.trans {middle : TablesV1} (first : KeepsSettled before middle)
    (second : KeepsSettled middle after) : KeepsSettled before after := by
  intro index terminal settlement found settled
  obtain ⟨between, foundBetween, settledBetween⟩ := first index terminal settlement found settled
  exact second index between settlement foundBetween settledBetween

theorem keepsSettled_fail (tables : TablesV1) (error : ErrorV1)
    (heard : Option (UInt32 → Bool × Bool)) : KeepsSettled tables (tables.fail error heard) := by
  intro index terminal settlement found settled
  unfold TablesV1.fail
  split
  · exact ⟨terminal, found, settled⟩
  · simp only [List.getElem?_mapIdx, found, Option.map_some, Option.some.injEq, exists_eq_left']
    split
    · exact TerminalV1.settle_of_settled settled _
    · exact settled

theorem keepsSettled_of_one
    (found : before.terminals[index]? = some terminal)
    (here : after.terminals[index]? = some later)
    (others : ∀ other, other ≠ index → after.terminals[other]? = before.terminals[other]?)
    (stays : ∀ settlement, terminal.settlement = some settlement →
      later.settlement = some settlement) : KeepsSettled before after := by
  intro other promise settlement there settled
  by_cases same : other = index
  · subst same
    rw [found] at there
    cases there
    exact ⟨later, here, stays settlement settled⟩
  · rw [others other same]
    exact ⟨promise, there, settled⟩

section

variable (outstanding : Outstanding before)

include outstanding

theorem Outstanding.of_same
    (pending : after.pending = before.pending) (terminals : after.terminals = before.terminals)
    (closed : after.closed = before.closed) : Outstanding after where
  pending := by
    rw [pending, terminals]
    exact outstanding.pending
  awaited := by
    intro index terminal
    rw [TablesV1.Awaited, pending, terminals]
    exact outstanding.awaited index terminal
  ended := by
    rw [pending, closed]
    exact outstanding.ended

/-- A request whose promise gets settled is taken out. -/
theorem Outstanding.close (found : before.terminals[index]? = some terminal)
    (own : ∀ entry, before.pending terminal.requestId = some entry → entry.terminal = index)
    (here : after.terminals[index]? = some later) (settled : later.settlement ≠ none)
    (others : ∀ other, other ≠ index → after.terminals[other]? = before.terminals[other]?)
    (pending : after.pending = Function.update before.pending terminal.requestId none)
    (closed : after.closed = before.closed) : Outstanding after where
  pending := by
    intro requestId entry entered
    rw [pending] at entered
    by_cases same : requestId = terminal.requestId
    · rw [same, Function.update_self] at entered
      cases entered
    · rw [Function.update_of_ne same] at entered
      have waits := outstanding.pending requestId entry entered
      obtain ⟨promise, there, named, rest⟩ := waits
      have apart : entry.terminal ≠ index := by
        intro collides
        rw [collides, found] at there
        cases there
        exact same named.symm
      rw [others _ apart]
      exact ⟨promise, there, named, rest⟩
  awaited := by
    intro other promise there returned unsettled
    by_cases same : other = index
    · subst same
      rw [here] at there
      cases there
      exact absurd unsettled settled
    · rw [others other same] at there
      have waits : before.Awaited other promise :=
        outstanding.awaited other promise there returned unsettled
      by_cases shared : promise.requestId = terminal.requestId
      · rw [TablesV1.Awaited, shared, Option.map_eq_some_iff] at waits
        obtain ⟨entry, entered, place⟩ := waits
        have collides := own entry entered
        omega
      · rw [TablesV1.Awaited, pending, Function.update_of_ne shared]
        exact waits
  ended := by
    intro ended requestId
    rw [closed] at ended
    rw [pending]
    by_cases same : requestId = terminal.requestId
    · rw [same, Function.update_self]
    · rw [Function.update_of_ne same]
      exact outstanding.ended ended requestId

theorem Outstanding.fail (error : ErrorV1)
    (heard : Option (UInt32 → Bool × Bool)) : Outstanding (before.fail error heard) := by
  unfold TablesV1.fail
  split
  · exact outstanding
  · refine ⟨fun _ _ entered => absurd entered (Option.some_ne_none _).symm, ?_, fun _ _ => rfl⟩
    intro index promise there returned unsettled
    simp only [List.getElem?_mapIdx, Option.map_eq_some_iff] at there
    obtain ⟨terminal, found, same⟩ := there
    by_cases waits : before.Awaited index terminal
    · rw [if_pos waits] at same
      subst same
      cases unsettled
    · rw [if_neg waits] at same
      subst same
      exact absurd (outstanding.awaited index terminal found returned unsettled) waits

theorem Outstanding.settle {requestId : UInt32}
    {entry : PendingV1} (entered : before.pending requestId = some entry)
    (settlement : SettlementV1) : Outstanding (before.settle requestId entry settlement) ∧
      KeepsSettled before (before.settle requestId entry settlement) := by
  have waits := outstanding.pending requestId entry entered
  obtain ⟨terminal, found, named, _⟩ := waits
  have here : (before.settle requestId entry settlement).terminals[entry.terminal]? =
      some (terminal.settle settlement) := by
    show (before.terminals.modify entry.terminal _)[entry.terminal]? = _
    rw [List.getElem?_modify_eq, found]
    rfl
  have others : ∀ other, other ≠ entry.terminal →
      (before.settle requestId entry settlement).terminals[other]? = before.terminals[other]? := by
    intro other apart
    exact List.getElem?_modify_ne _ _ apart.symm
  have own : ∀ found, before.pending terminal.requestId = some found →
      found.terminal = entry.terminal := by
    intro another again
    rw [named, entered] at again
    cases again
    rfl
  refine ⟨outstanding.close found own here ?_ others ?_ rfl,
    keepsSettled_of_one found here others fun _ settled =>
      TerminalV1.settle_of_settled settled settlement⟩
  · rw [TerminalV1.settlement_settle]
    exact Option.some_ne_none _
  · rw [named]
    rfl

theorem Outstanding.writeSucceeded (found : before.terminals[index]? = some terminal) :
    Outstanding (before.writeSucceeded index terminal) ∧
      KeepsSettled before (before.writeSucceeded index terminal) := by
  have small : index < before.terminals.length := (List.getElem?_eq_some_iff.mp found).1
  have here : (before.writeSucceeded index terminal).terminals[index]? =
      some { terminal with writing := false } := List.getElem?_set_self small
  have others : ∀ other, other ≠ index →
      (before.writeSucceeded index terminal).terminals[other]? = before.terminals[other]? := by
    intro other apart
    exact List.getElem?_set_ne apart.symm
  refine ⟨⟨?_, ?_, outstanding.ended⟩, keepsSettled_of_one found here others fun _ settled =>
    settled⟩
  · intro requestId entry entered
    have waits := outstanding.pending requestId entry entered
    obtain ⟨promise, there, rest⟩ := waits
    by_cases same : entry.terminal = index
    · rw [same] at there ⊢
      rw [found] at there
      cases there
      exact ⟨_, here, rest⟩
    · rw [others _ same]
      exact ⟨promise, there, rest⟩
  · intro other promise there returned unsettled
    by_cases same : other = index
    · subst same
      rw [here] at there
      cases there
      exact outstanding.awaited other terminal found returned unsettled
    · rw [others other same] at there
      exact outstanding.awaited other promise there returned unsettled

theorem Outstanding.writeFailed (found : before.terminals[index]? = some terminal)
    (own : ∀ entry, before.pending terminal.requestId = some entry → entry.terminal = index)
    (error : ErrorV1) : Outstanding (before.writeFailed index terminal error) ∧
      KeepsSettled before (before.writeFailed index terminal error) := by
  have small : index < before.terminals.length := (List.getElem?_eq_some_iff.mp found).1
  have here : (before.writeFailed index terminal error).terminals[index]? =
      some ({ terminal with writing := false }.settle (.rejected error)) :=
    List.getElem?_set_self small
  have others : ∀ other, other ≠ index →
      (before.writeFailed index terminal error).terminals[other]? = before.terminals[other]? := by
    intro other apart
    exact List.getElem?_set_ne apart.symm
  have settled : ({ terminal with writing := false }.settle (.rejected error)).settlement ≠
      none := by
    rw [TerminalV1.settlement_settle]
    exact Option.some_ne_none _
  refine ⟨outstanding.close found own here settled others rfl rfl,
    keepsSettled_of_one found here others ?_⟩
  intro settlement known
  have known : ({ terminal with writing := false } : TerminalV1).settlement =
    some settlement := known
  exact TerminalV1.settle_of_settled known _

theorem Outstanding.request (running : before.closed = false)
    {kind : PendingKindV1} {promise : TerminalV1} (free : before.pending promise.requestId = none)
    (returned : promise.returned = true) (unsettled : promise.settlement = none)
    (handed : ∃ frame : ProcessSupervisorFrameV1, frame.requestId = promise.requestId ∧
      promise.handed = some (frameBytes frame)) : Outstanding (before.request kind promise) where
  pending := by
    intro requestId entry entered
    have entered : Function.update before.pending promise.requestId
        (some ⟨kind, before.terminals.length⟩) requestId = some entry := entered
    show ∃ terminal, (before.terminals ++ [promise])[entry.terminal]? = some terminal ∧ _
    by_cases same : requestId = promise.requestId
    · rw [same, Function.update_self] at entered
      cases entered
      exact ⟨promise, List.getElem?_concat_length, same.symm, returned, unsettled, same ▸ handed⟩
    · rw [Function.update_of_ne same] at entered
      have waits := outstanding.pending requestId entry entered
      obtain ⟨terminal, there, rest⟩ := waits
      have small : entry.terminal < before.terminals.length :=
        (List.getElem?_eq_some_iff.mp there).1
      rw [List.getElem?_append_left small]
      exact ⟨terminal, there, rest⟩
  awaited := by
    intro index terminal there isReturned isUnsettled
    have there : (before.terminals ++ [promise])[index]? = some terminal := there
    show (Function.update before.pending promise.requestId
      (some ⟨kind, before.terminals.length⟩) terminal.requestId).map PendingV1.terminal = some index
    by_cases small : index < before.terminals.length
    · rw [List.getElem?_append_left small] at there
      have waits : before.Awaited index terminal :=
        outstanding.awaited index terminal there isReturned isUnsettled
      have apart : terminal.requestId ≠ promise.requestId := by
        intro collides
        rw [TablesV1.Awaited, collides, free] at waits
        cases waits
      rw [Function.update_of_ne apart]
      exact waits
    · have bound := (List.getElem?_eq_some_iff.mp there).1
      rw [List.length_append, List.length_singleton] at bound
      have last : index = before.terminals.length := by omega
      rw [last, List.getElem?_concat_length] at there
      cases there
      rw [Function.update_self, last]
      rfl
  ended := by
    intro ended
    have ended : before.closed = true := ended
    rw [running] at ended
    cases ended

end

theorem keepsSettled_request (tables : TablesV1) (kind : PendingKindV1) (promise : TerminalV1) :
    KeepsSettled tables (tables.request kind promise) := by
  intro index terminal settlement found settled
  have small : index < tables.terminals.length := (List.getElem?_eq_some_iff.mp found).1
  refine ⟨terminal, ?_, settled⟩
  show (tables.terminals ++ [promise])[index]? = _
  rw [List.getElem?_append_left small, found]

end Tables

namespace HoloUvSupervisorEnvironmentV1

variable {environment : HoloUvSupervisorEnvironmentV1} {event : EventV1}

variable {call : CallV1} {after : TablesV1} {handlers : HandlersV1}
  {next : HoloUvSupervisorEnvironmentV1}

theorem open_of_asks {action : ActionV1} (asked : environment.asks action = some call) :
    environment.tables.closed = false := by
  by_contra closed
  rw [Bool.not_eq_false] at closed
  cases action with
  | spawns request =>
    have refused : environment.spawn request = none := by
      rw [spawn, if_pos closed]
    rw [asks, refused] at asked
    cases asked
  | commands operation processId payload =>
    have refused : environment.command operation processId payload = none := by
      rw [command, if_pos (.inl closed)]
    rw [asks, refused] at asked
    cases asked
  | configures payload aborted =>
    have refused : environment.configure payload aborted = none := by
      unfold configure
      split
      · rfl
      · exact if_pos (.inl closed)
    rw [asks, refused] at asked
    cases asked
  | _ => cases asked

theorem promise_of_writable {transportThrows : Bool} (running : environment.tables.closed = false)
    (writable : environment.Writable call transportThrows) :
    ∃ frame : ProcessSupervisorFrameV1, frame.requestId = environment.nextRequestId ∧
      environment.promise call transportThrows =
        ⟨environment.nextRequestId, true, some (frameBytes frame), true, none⟩ := by
  obtain ⟨attached, quiet, payload, payloadIs, encodes⟩ := writable
  have payloadOk : call.payload = .ok payload := by
    cases given : call.payload with
    | error error =>
      rw [given] at payloadIs
      cases payloadIs
    | ok bytes =>
      rw [given] at payloadIs
      cases payloadIs
      rfl
  obtain ⟨bytes, encoded⟩ := Option.isSome_iff_exists.mp encodes
  obtain ⟨frame, named, written⟩ := requestId_of_encoded encoded
  have handed : environment.write call.operation call.processId environment.nextRequestId
      call.payload transportThrows = .handed bytes := by
    have going : ¬ (environment.tables.closed = true ∨ environment.attached = false) := by
      rw [running, attached]
      decide
    unfold write
    rw [payloadOk]
    simp only [if_neg going, encoded, quiet]
    rfl
  refine ⟨frame, named, ?_⟩
  rw [promise, handed, written]

theorem Moves.outstanding (moves : environment.Moves event after)
    (outstanding : Outstanding environment.tables) (orderly : environment.Orderly event) :
    Outstanding after ∧ KeepsSettled environment.tables after := by
  have aside : ∀ tables : TablesV1, tables.pending = environment.tables.pending →
      tables.terminals = environment.tables.terminals →
        tables.closed = environment.tables.closed →
          Outstanding tables ∧ KeepsSettled environment.tables tables := by
    intro tables pending terminals closed
    exact ⟨outstanding.of_same pending terminals closed, keepsSettled_of_same terminals⟩
  cases moves with
  | requests call asked free =>
    have running := open_of_asks asked
    have writable := orderly.1 call asked free
    obtain ⟨frame, named, promised⟩ := promise_of_writable running writable
    refine ⟨outstanding.request running ?_ ?_ ?_ ?_, keepsSettled_request _ _ _⟩
    · rw [promised]
      exact free
    · rw [promised]
    · rw [promised]
    · rw [promised]
      exact ⟨frame, named, rfl⟩
  | writeSucceeds index terminal found => exact outstanding.writeSucceeded found
  | writeFails index terminal error named found =>
    have reported : index ∈ unwritten event.action := by
      rw [named]
      rfl
    exact outstanding.writeFailed found (orderly.2 index reported terminal found) error
  | settles requestId entry settlement found => exact outstanding.settle found settlement
  | spawns requestId processId entry source serial found =>
    have settled := outstanding.settle found .resolved
    exact ⟨settled.1.of_same rfl rfl rfl, settled.2.trans (keepsSettled_of_same rfl)⟩
  | consumes address port transport now =>
    have fields : ∀ tables : TablesV1, tables = environment.tables.consumeNetworkAdmission address
        port transport now → tables.pending = environment.tables.pending ∧
          tables.terminals = environment.tables.terminals ∧
            tables.closed = environment.tables.closed := by
      intro tables consumed
      unfold TablesV1.consumeNetworkAdmission at consumed
      simp only at consumed
      split at consumed
      · exact consumed ▸ ⟨rfl, rfl, rfl⟩
      · exact consumed ▸ ⟨rfl, rfl, rfl⟩
    have same := fields _ rfl
    exact aside _ same.1 same.2.1 same.2.2
  | _ => exact aside _ rfl rfl rfl

theorem Settled.outstanding (settled : Settled environment event after)
    (outstanding : Outstanding environment.tables) (orderly : environment.Orderly event) :
    Outstanding after ∧ KeepsSettled environment.tables after := by
  obtain ⟨moved, moves, ends⟩ := settled
  have kept := moves.outstanding outstanding orderly
  rcases ends with same | ⟨error, heard, failed⟩
  · rw [same]
    exact kept
  · rw [failed]
    exact ⟨kept.1.fail error heard, kept.2.trans (keepsSettled_fail moved error heard)⟩

theorem step_of_asks (asked : environment.asks event.action = some call)
    (stepped : environment.step handlers event = some next) :
    next = environment.request call event.transportThrows := by
  unfold step at stepped
  split at stepped
  case isFalse => cases stepped
  unfold perform at stepped
  cases named : event.action with
  | spawns request =>
    rw [named] at asked
    have asked : environment.spawn request = some call := asked
    simp only [named, asked, Option.some.injEq] at stepped
    exact stepped.symm
  | commands operation processId payload =>
    rw [named] at asked
    have asked : environment.command operation processId payload = some call := asked
    simp only [named, asked, Option.some.injEq] at stepped
    exact stepped.symm
  | configures payload aborted =>
    rw [named] at asked
    have asked : environment.configure payload aborted = some call := asked
    simp only [named, asked] at stepped
    split at stepped
    · rename_i cancelled
      unfold configure at asked
      split at asked
      · cases asked
      · rw [if_pos (.inr (.inr cancelled.2.2.2))] at asked
        cases asked
    · exact (Option.some.inj stepped).symm
  | _ =>
    rw [named] at asked
    cases asked

theorem answers_of_step (orderly : environment.Orderly event)
    (stepped : environment.step handlers event = some next) : environment.Answers event next := by
  intro call asked
  have requested := step_of_asks asked stepped
  unfold request at requested
  simp only at requested
  by_cases taken : (environment.tables.pending environment.nextRequestId).isSome = true
  · rw [if_pos taken] at requested
    right
    rw [requested]
    rfl
  · rw [if_neg taken] at requested
    have free := Option.not_isSome_iff_eq_none.mp taken
    have writable := orderly.1 call asked free
    obtain ⟨frame, _, promised⟩ := promise_of_writable (open_of_asks asked) writable
    left
    refine ⟨environment.promise call event.transportThrows, ?_, ?_⟩
    · rw [requested]
      rfl
    · rw [promised]

end HoloUvSupervisorEnvironmentV1

open HoloUvSupervisorEnvironmentV1

/-- As long as calls that get to their requests can write them, the pending requests are exactly the
outstanding ones. -/
theorem pending_outstanding {handlers : HandlersV1} {events : List EventV1}
    {environment : HoloUvSupervisorEnvironmentV1}
    (reached : (supervisorMachine handlers).ReachesWhen Orderly events environment) :
    environment.ExactlyPending handlers Orderly := by
  have begins : Outstanding TablesV1.new :=
    ⟨fun _ _ entered => absurd entered (Option.some_ne_none _).symm,
      fun _ _ found => absurd found (Option.some_ne_none _).symm, fun _ _ => rfl⟩
  have outstanding : Outstanding environment.tables :=
    Machine.Leads.keeps reached (fun state => Outstanding state.tables) begins
      fun _ _ _ held orderly stepped => ((settled_of_step stepped).outstanding held orderly).1
  refine ⟨outstanding, ?_, ?_⟩
  · intro ended terminal listed returned unsettled
    obtain ⟨index, found⟩ := List.getElem?_of_mem listed
    have waits : environment.tables.Awaited index terminal :=
      outstanding.awaited index terminal found returned unsettled
    rw [TablesV1.Awaited, outstanding.ended ended] at waits
    cases waits
  · intro event next orderly stepped
    exact ⟨((settled_of_step stepped).outstanding outstanding orderly).2,
      answers_of_step orderly stepped⟩

def allHandlers : HandlersV1 := ⟨true, true, true, true⟩

def listing (args : List Text) (short : ∀ text ∈ args, text.length ≤ longestString) :
    ProcessBackendSpawnRequestV1 where
  args := args
  cwd := js "/"
  env := []
  executable := ⟨js "guestPath", js "/bin/ls"⟩
  executableId := js "ls"
  processResourceId := js "resource"
  stdio := [js "ignore", js "pipe", js "ignore"]
  record := List.nodup_nil
  short := by
    intro text listed
    simp only [List.flatMap_nil, List.append_nil, List.mem_append] at listed
    rcases listed with fixed | given
    · have lengths : ∀ text ∈ [js "/bin/ls", js "/", js "ls", js "resource"],
          text.length ≤ longestString := by decide +kernel
      exact lengths text fixed
    · exact short text given

def readyFrame : ProcessSupervisorFrameV1 := ⟨.ready, [0, 0, 0, 1], 0, 0, 0⟩

def spawnedFrame : ProcessSupervisorFrameV1 := ⟨.spawned, [0, 0, 0, 99], 7, 1, 0⟩

def opening : List EventV1 :=
  [.calm .attach, .calm (.receives (frameBytes readyFrame)), .calm .continues,
    .calm (.spawns (listing [js "-l"] (by decide +kernel))),
    .calm (.receives (frameBytes spawnedFrame)), .calm .continues]

theorem pending_outstanding_opening : ∃ environment,
    (supervisorMachine allHandlers).ReachesWhen Orderly
      (opening ++ [.calm (.commands .stdinClose 7 .other)]) environment ∧
    (environment.tables.pending 2).map PendingV1.kind = some (.command 7) ∧
    environment.ExactlyPending allHandlers Orderly := by
  have run : (((supervisorMachine allHandlers).guarded Orderly).run
      (opening ++ [.calm (.commands .stdinClose 7 .other)])).map
        (fun environment => (environment.tables.pending 2).map PendingV1.kind) =
          some (some (.command 7)) := by decide +kernel
  obtain ⟨environment, reached, fields⟩ := Machine.exists_of_guarded_run run
  exact ⟨environment, reached, fields, pending_outstanding reached⟩

theorem not_pending_outstanding : ¬ ∀ handlers events environment,
    (supervisorMachine handlers).Reaches events environment →
      environment.ExactlyPending handlers fun _ _ => True := by
  intro claim
  have run : ((supervisorMachine allHandlers).run
      [.calm .attach, .calm (.spawns (listing [[0]] (by decide +kernel)))]).map
        (fun environment => ((environment.tables.pending 1).map PendingV1.terminal,
          environment.tables.terminals.map TerminalV1.returned)) =
            some (some 0, [false]) := by decide +kernel
  obtain ⟨environment, reached, fields⟩ := Machine.exists_of_run run
  simp only [Prod.mk.injEq, Option.map_eq_some_iff] at fields
  obtain ⟨⟨entry, entered, first⟩, unreturned⟩ := fields
  have exactly := claim _ _ environment reached
  obtain ⟨terminal, there, _, returned, _⟩ := exactly.outstanding.pending 1 entry entered
  rw [first] at there
  have listed := congrArg (fun flags : List Bool => flags[0]?) unreturned
  simp only [List.getElem?_map, there, Option.map_some, returned] at listed
  cases listed

end Holonomy.Supervisor
