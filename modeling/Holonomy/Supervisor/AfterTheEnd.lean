import Holonomy.Supervisor.PendingRequests

/-!
# Behind the end of the connection

Failing ends neither the loop over the frames of a chunk nor the handlers, so frames that follow in
the chunk are still received and their handlers invoked. Nothing is served behind the end in the
runs in which nothing of that kind comes behind it.
-/

namespace Holonomy.Supervisor

open Foundation

/-! ## Grants to live processes

Executions and admissions are entered when their handlers are done, without another look at the
process they were asked for.
-/

section

structure NamesLive (tables : TablesV1) : Prop where
  commits : ∀ requestId commit, tables.pendingExecutionCommits requestId = some commit →
    (tables.processes commit.processId).isSome = true
  admissions : ∀ admission ∈ tables.networkAdmissions,
    (tables.processes admission.processId).isSome = true
  ended : tables.closed = true →
    (∀ requestId, tables.pendingExecutionCommits requestId = none) ∧ tables.networkAdmissions = []

def TablesV1.serials (tables : TablesV1) : List ℕ :=
  tables.networkAdmissions.map HoloUvNetworkAdmissionV1.serial ++
    tables.consumed.map fun consumption => consumption.admission.serial

structure HandedOnce (tables : TablesV1) : Prop where
  fitting : ∀ consumption ∈ tables.consumed, consumption.now < consumption.admission.expiresAt ∧
    TablesV1.Suits consumption.address consumption.port consumption.transport consumption.admission
  once : tables.serials.Nodup
  made : ∀ serial ∈ tables.serials, serial < tables.admitted

namespace HoloUvSupervisorEnvironmentV1

variable (environment : HoloUvSupervisorEnvironmentV1) (event : EventV1)

def Punctual : Prop :=
  ∀ done ∈ environment.completed event.action,
    environment.Grants done.1 done.2.1 done.2.2 → environment.Serves done.1
  deriving Decidable

end HoloUvSupervisorEnvironmentV1

section Tables

variable {before after : TablesV1}

theorem NamesLive.of_fewer (live : NamesLive before)
    (commits : ∀ requestId commit, after.pendingExecutionCommits requestId = some commit →
      before.pendingExecutionCommits requestId = some commit)
    (admissions : ∀ admission ∈ after.networkAdmissions, admission ∈ before.networkAdmissions)
    (processes : ∀ processId, (before.processes processId).isSome = true →
      (after.processes processId).isSome = true)
    (closed : after.closed = before.closed) : NamesLive after where
  commits := by
    intro requestId commit entered
    exact processes _ (live.commits requestId commit (commits requestId commit entered))
  admissions := by
    intro admission listed
    exact processes _ (live.admissions admission (admissions admission listed))
  ended := by
    intro ended
    rw [closed] at ended
    have none := live.ended ended
    constructor
    · intro requestId
      cases entered : after.pendingExecutionCommits requestId with
      | none => rfl
      | some commit =>
        have earlier := commits requestId commit entered
        rw [none.1] at earlier
        cases earlier
    · rw [none.2] at admissions
      exact List.eq_nil_iff_forall_not_mem.mpr fun admission listed =>
        List.not_mem_nil (admissions admission listed)

theorem isSome_update {processId : UInt32} (process : HoloUvSupervisorProcessV1)
    (other : UInt32) (known : (before.processes other).isSome = true) :
    (Function.update before.processes processId (some process) other).isSome = true := by
  by_cases same : other = processId
  · rw [same, Function.update_self]
    rfl
  · rw [Function.update_of_ne same]
    exact known

theorem commit_of_update {requestId other : UInt32} {commit : PendingExecutionCommitV1}
    (entered : Function.update before.pendingExecutionCommits requestId none other = some commit) :
    before.pendingExecutionCommits other = some commit := by
  by_cases same : other = requestId
  · rw [same, Function.update_self] at entered
    cases entered
  · rwa [Function.update_of_ne same] at entered

section

variable (live : NamesLive before)

include live

theorem NamesLive.fail (error : ErrorV1)
    (heard : Option (UInt32 → Bool × Bool)) : NamesLive (before.fail error heard) := by
  unfold TablesV1.fail
  split
  · exact live
  · exact ⟨fun _ _ entered => absurd entered (Option.some_ne_none _).symm,
      fun _ listed => absurd listed List.not_mem_nil, fun _ => ⟨fun _ => rfl, rfl⟩⟩

theorem NamesLive.remove (processId : UInt32) :
    NamesLive (before.remove processId) := by
  have others : ∀ other, other ≠ processId → (before.processes other).isSome = true →
      ((before.remove processId).processes other).isSome = true := by
    intro other apart known
    show (Function.update before.processes processId none other).isSome = true
    rw [Function.update_of_ne apart]
    exact known
  refine ⟨?_, ?_, ?_⟩
  · intro requestId commit entered
    have entered : (before.pendingExecutionCommits requestId).filter
        (fun commit => commit.processId ≠ processId) = some commit := entered
    rw [Option.filter_eq_some_iff] at entered
    have apart : commit.processId ≠ processId := by simpa using entered.2
    exact others _ apart (live.commits requestId commit entered.1)
  · intro admission listed
    have listed := List.mem_filter.mp listed
    have apart : admission.processId ≠ processId := by simpa using listed.2
    exact others _ apart (live.admissions admission listed.1)
  · intro ended
    have none := live.ended ended
    constructor
    · intro requestId
      show (before.pendingExecutionCommits requestId).filter _ = _
      rw [none.1]
      rfl
    · show before.networkAdmissions.filter _ = _
      rw [none.2]
      rfl

theorem NamesLive.commit (running : before.closed = false)
    {entry : PendingExecutionCommitV1}
    (known : (before.processes entry.processId).isSome = true) (requestId : UInt32) :
    NamesLive (before.commit requestId (some entry)) := by
  refine ⟨?_, live.admissions, ?_⟩
  · intro other commit entered
    have entered : Function.update before.pendingExecutionCommits requestId (some entry) other =
        some commit := entered
    by_cases same : other = requestId
    · rw [same, Function.update_self] at entered
      cases entered
      exact known
    · rw [Function.update_of_ne same] at entered
      exact live.commits other commit entered
  · intro ended
    have ended : before.closed = true := ended
    rw [running] at ended
    cases ended

theorem NamesLive.record (running : before.closed = false)
    {processId : UInt32} (known : (before.processes processId).isSome = true)
    (source : HoloUvLinuxProcessSourceV1) (request : ProcessSupervisorNetworkRequestV1) (now : ℕ) :
    NamesLive (before.record source request processId now) := by
  refine ⟨live.commits, ?_, ?_⟩
  · exact forall_mem_concat live.admissions known
  · intro ended
    have ended : before.closed = true := ended
    rw [running] at ended
    cases ended

end

theorem consumeNetworkAdmission_cases (tables : TablesV1) (address : Text) (port : ℕ)
    (transport : NetworkTransport) (now : ℕ) :
    tables.consumeNetworkAdmission address port transport now = tables.prune now ∨
      ∃ index admission, (tables.prune now).networkAdmissions[index]? = some admission ∧
        TablesV1.Suits address port transport admission ∧
        tables.consumeNetworkAdmission address port transport now =
          { tables.prune now with
            networkAdmissions := (tables.prune now).networkAdmissions.eraseIdx index
            consumed := tables.consumed ++ [⟨admission, address, port, transport, now⟩] } := by
  unfold TablesV1.consumeNetworkAdmission
  simp only
  split
  · exact .inl rfl
  · rename_i admission found
    refine .inr ⟨_, admission, found, ?_, rfl⟩
    obtain ⟨small, same⟩ := List.getElem?_eq_some_iff.mp found
    have suits := List.findIdx_getElem (w := small)
    rw [same] at suits
    exact of_decide_eq_true suits

theorem NamesLive.prune (live : NamesLive before) (now : ℕ) : NamesLive (before.prune now) :=
  live.of_fewer (fun _ _ entered => entered) (fun _ listed => (List.mem_filter.mp listed).1)
    (fun _ known => known) rfl

section

variable (handed : HandedOnce before)

include handed

theorem HandedOnce.of_sublist
    (admissions : after.networkAdmissions.Sublist before.networkAdmissions)
    (consumed : after.consumed = before.consumed) (admitted : after.admitted = before.admitted) :
    HandedOnce after := by
  have listed : after.serials.Sublist before.serials := by
    rw [TablesV1.serials, consumed]
    exact (admissions.map HoloUvNetworkAdmissionV1.serial).append (List.Sublist.refl _)
  refine ⟨?_, handed.once.sublist listed, ?_⟩
  · rw [consumed]
    exact handed.fitting
  · rw [admitted]
    exact fun serial serialIn => handed.made serial (listed.subset serialIn)

theorem HandedOnce.fail (error : ErrorV1)
    (heard : Option (UInt32 → Bool × Bool)) : HandedOnce (before.fail error heard) := by
  unfold TablesV1.fail
  split
  · exact handed
  · exact handed.of_sublist (List.nil_sublist _) rfl rfl

theorem HandedOnce.record (source : HoloUvLinuxProcessSourceV1)
    (request : ProcessSupervisorNetworkRequestV1) (processId : UInt32) (now : ℕ) :
    HandedOnce (before.record source request processId now) := by
  have order : (before.record source request processId now).serials.Perm
      (before.admitted :: before.serials) := by
    show (List.map _ (before.networkAdmissions ++ [_]) ++ _).Perm _
    rw [List.map_append, List.append_assoc]
    exact List.perm_middle
  refine ⟨handed.fitting, ?_, ?_⟩
  · refine order.nodup_iff.mpr (List.nodup_cons.mpr ⟨?_, handed.once⟩)
    intro again
    have small := handed.made _ again
    omega
  · intro serial serialIn
    show serial < before.admitted + 1
    rcases List.mem_cons.mp (order.mem_iff.mp serialIn) with latest | earlier
    · omega
    · have small := handed.made serial earlier
      omega

theorem HandedOnce.consume (address : Text) (port : ℕ)
    (transport : NetworkTransport) (now : ℕ) :
    HandedOnce (before.consumeNetworkAdmission address port transport now) := by
  have pruned : HandedOnce (before.prune now) := handed.of_sublist List.filter_sublist rfl rfl
  rcases consumeNetworkAdmission_cases before address port transport now with
    same | ⟨index, admission, found, suits, consumed⟩
  · rw [same]
    exact pruned
  · rw [consumed]
    obtain ⟨small, place⟩ := List.getElem?_eq_some_iff.mp found
    have fresh : now < admission.expiresAt := by
      have kept : admission ∈ before.networkAdmissions.filter
          fun admission => now < admission.expiresAt := List.mem_of_getElem? found
      simpa using (List.mem_filter.mp kept).2
    have taken := List.getElem_cons_eraseIdx_perm small
    rw [place] at taken
    have order : (((before.prune now).networkAdmissions.eraseIdx index).map
        HoloUvNetworkAdmissionV1.serial ++ (before.consumed ++
          [(⟨admission, address, port, transport, now⟩ : ConsumptionV1)]).map
            fun consumption => consumption.admission.serial).Perm (before.prune now).serials := by
      have whole := (taken.map HoloUvNetworkAdmissionV1.serial).append_right
        (before.consumed.map fun consumption => consumption.admission.serial)
      rw [List.map_append, ← List.append_assoc]
      exact List.perm_append_comm.trans whole
    refine ⟨?_, ?_, ?_⟩
    · exact forall_mem_concat handed.fitting ⟨fresh, suits⟩
    · exact order.nodup_iff.mpr pruned.once
    · exact fun serial serialIn => pruned.made serial (order.mem_iff.mp serialIn)

end

end Tables

namespace HoloUvSupervisorEnvironmentV1

variable {environment : HoloUvSupervisorEnvironmentV1} {event : EventV1}

theorem Moves.handedOnce {after : TablesV1} (moves : environment.Moves event after)
    (handed : HandedOnce environment.tables) : HandedOnce after := by
  have pruned : ∀ now, HandedOnce (environment.tables.prune now) := fun _ =>
    handed.of_sublist List.filter_sublist rfl rfl
  have same : ∀ tables : TablesV1, tables.networkAdmissions = environment.tables.networkAdmissions →
      tables.consumed = environment.tables.consumed →
        tables.admitted = environment.tables.admitted → HandedOnce tables := by
    intro tables admissions consumed admitted
    exact handed.of_sublist (admissions ▸ List.Sublist.refl _) consumed admitted
  cases moves with
  | removes processId => exact handed.of_sublist List.filter_sublist rfl rfl
  | prunes now => exact pruned now
  | admits job outcome now source request done granted =>
    exact (pruned now).record source request job.processId now
  | consumes address port transport now => exact handed.consume address port transport now
  | _ => exact same _ rfl rfl rfl

theorem Moves.namesLive {after : TablesV1} (moves : environment.Moves event after)
    (live : NamesLive environment.tables) (punctual : environment.Punctual event) :
    NamesLive after := by
  have same : ∀ tables : TablesV1,
      tables.pendingExecutionCommits = environment.tables.pendingExecutionCommits →
        tables.networkAdmissions = environment.tables.networkAdmissions →
          tables.processes = environment.tables.processes →
            tables.closed = environment.tables.closed → NamesLive tables := by
    intro tables commits admissions processes closed
    exact live.of_fewer (by rw [commits]; exact fun _ _ entered => entered)
      (by rw [admissions]; exact fun _ listed => listed)
      (by rw [processes]; exact fun _ known => known) closed
  cases moves with
  | spawns requestId processId entry source serial found =>
    exact live.of_fewer (fun _ _ entered => entered) (fun _ listed => listed)
      (fun other known => isSome_update _ other known) rfl
  | touches processId process known =>
    exact live.of_fewer (fun _ _ entered => entered) (fun _ listed => listed)
      (fun other known => isSome_update _ other known) rfl
  | removes processId => exact live.remove processId
  | grants job outcome now caller text done granted =>
    have serves := punctual (job, outcome, now) done granted
    exact live.commit serves.1 serves.2 job.requestId
  | revokes requestId =>
    exact live.of_fewer (fun _ _ entered => commit_of_update entered) (fun _ listed => listed)
      (fun _ known => known) rfl
  | replaces requestId processId commit tree found =>
    exact live.of_fewer (fun _ _ entered => commit_of_update entered) (fun _ listed => listed)
      (fun _ known => known) rfl
  | prunes now => exact live.prune now
  | admits job outcome now source request done granted =>
    have serves := punctual (job, outcome, now) done granted
    exact (live.prune now).record serves.1 serves.2 source request now
  | consumes address port transport now =>
    rcases consumeNetworkAdmission_cases environment.tables address port transport now with
      same | ⟨index, admission, _, _, consumed⟩
    · rw [same]
      exact live.prune now
    · rw [consumed]
      exact (live.prune now).of_fewer (fun _ _ entered => entered)
        (fun _ listed => List.mem_of_mem_eraseIdx listed) (fun _ known => known) rfl
  | _ => exact same _ rfl rfl rfl rfl

theorem Settled.namesLive {after : TablesV1} (settled : Settled environment event after)
    (live : NamesLive environment.tables) (punctual : environment.Punctual event) :
    NamesLive after := by
  obtain ⟨moved, moves, ends⟩ := settled
  have kept := moves.namesLive live punctual
  rcases ends with same | ⟨error, heard, failed⟩
  · rw [same]
    exact kept
  · rw [failed]
    exact kept.fail error heard

theorem Settled.handedOnce {after : TablesV1} (settled : Settled environment event after)
    (handed : HandedOnce environment.tables) : HandedOnce after := by
  obtain ⟨moved, moves, ends⟩ := settled
  have kept := moves.handedOnce handed
  rcases ends with same | ⟨error, heard, failed⟩
  · rw [same]
    exact kept
  · rw [failed]
    exact kept.fail error heard

end HoloUvSupervisorEnvironmentV1

open HoloUvSupervisorEnvironmentV1

theorem handedOnce_of_reaches {handlers : HandlersV1} {events : List EventV1}
    {environment : HoloUvSupervisorEnvironmentV1}
    (reached : (supervisorMachine handlers).Reaches events environment) :
    HandedOnce environment.tables := by
  have begins : HandedOnce TablesV1.new :=
    ⟨fun _ listed => absurd listed List.not_mem_nil, List.nodup_nil,
      fun _ listed => absurd listed List.not_mem_nil⟩
  exact Machine.Leads.keeps reached (fun state => HandedOnce state.tables) begins
    fun _ _ _ held _ stepped => (settled_of_step stepped).handedOnce held

/-- As long as no handler grants anything behind the end of its process, executions and admissions
name live processes; admissions are handed out once, in time and to whom they were made for. -/
theorem grants_live {handlers : HandlersV1} {events : List EventV1}
    {environment : HoloUvSupervisorEnvironmentV1}
    (reached : (supervisorMachine handlers).ReachesWhen Punctual events environment) :
    NamesLive environment.tables ∧ HandedOnce environment.tables := by
  have begins : NamesLive TablesV1.new :=
    ⟨fun _ _ entered => absurd entered (Option.some_ne_none _).symm,
      fun _ listed => absurd listed List.not_mem_nil, fun _ => ⟨fun _ => rfl, rfl⟩⟩
  refine ⟨?_, handedOnce_of_reaches reached.reaches⟩
  exact Machine.Leads.keeps reached (fun state => NamesLive state.tables) begins
    fun _ _ _ held punctual stepped => (settled_of_step stepped).namesLive held punctual

/-- Process 7 asks to run `/a`. -/
def execFrame : ProcessSupervisorFrameV1 where
  operation := .execRequest
  payload := [0, 0, 0, 99, 0, 0, 0, 1, 0, 0, 0, 0, 0, 0, 0, 5, 0, 0, 0, 2, 0x2F, 0x61,
    0, 0, 0, 1, 0x2F, 0, 1, 0, 0, 0, 1, 0x61]
  processId := 7
  requestId := 5
  sequence := 0

/-- Process 7 asks for a connection to port 80 of 10.0.0.1. -/
def networkFrame : ProcessSupervisorFrameV1 where
  operation := .networkRequest
  payload := [0, 0, 0, 99, 0, 0, 0, 1, 0, 0, 0, 0, 0, 0, 0, 5, 1, 10, 0, 0, 1, 0, 80]
  processId := 7
  requestId := 6
  sequence := 0

def closeFrame : ProcessSupervisorFrameV1 := ⟨.close, [0, 0, 0, 0, 0, 0, 0, 0], 7, 0, 0⟩

/-- Process 7 asks to run a program, and the handler is invoked. -/
def asking : List EventV1 :=
  opening ++ [.calm (.receives (frameBytes execFrame)), .calm .continues, .calm (.starts 0)]

/-- The handlers grant both, and the connection is made in time. -/
def granting : List EventV1 :=
  asking ++ [.calm (.completes 0 (.target (js "a")) 0),
    .calm (.receives (frameBytes networkFrame)), .calm .continues, .calm (.starts 1),
    .calm (.completes 1 .other 10), .calm (.consumes (js "10.0.0.1") 80 .tcp 20)]

theorem grants_live_granting : ∃ environment,
    (supervisorMachine allHandlers).ReachesWhen Punctual granting environment ∧
    (environment.tables.pendingExecutionCommits 5).isSome = true ∧
    environment.tables.consumed.length = 1 ∧
    NamesLive environment.tables ∧ HandedOnce environment.tables := by
  have run : (((supervisorMachine allHandlers).guarded Punctual).run granting).map
      (fun environment => ((environment.tables.pendingExecutionCommits 5).isSome,
        environment.tables.consumed.length)) = some (true, 1) := by decide +kernel
  obtain ⟨environment, reached, fields⟩ := Machine.exists_of_guarded_run run
  simp only [Prod.mk.injEq] at fields
  exact ⟨environment, reached, fields.1, fields.2, grants_live reached⟩

/-- In every run, behind the end too, an admission is taken at most once, before it expires and for
what it was made for; what was taken is not offered again. -/
theorem admissions_takenOnce {handlers : HandlersV1} {events : List EventV1}
    {environment : HoloUvSupervisorEnvironmentV1}
    (reached : (supervisorMachine handlers).Reaches events environment) :
    (environment.tables.consumed.map fun taken => taken.admission.serial).Nodup ∧
    ∀ taken ∈ environment.tables.consumed, taken.now < taken.admission.expiresAt ∧
      TablesV1.Suits taken.address taken.port taken.transport taken.admission ∧
      ∀ offered ∈ environment.tables.networkAdmissions,
        offered.serial ≠ taken.admission.serial := by
  have handed := handedOnce_of_reaches reached
  obtain ⟨-, once, apart⟩ := List.nodup_append.mp handed.once
  refine ⟨once, fun taken takenIn => ⟨(handed.fitting taken takenIn).1,
    (handed.fitting taken takenIn).2, fun offered offeredIn => ?_⟩⟩
  exact apart _ (List.mem_map_of_mem offeredIn) _ (List.mem_map_of_mem takenIn)

/-- The admission of the connection is taken. -/
theorem admissions_takenOnce_granting : ∃ environment : HoloUvSupervisorEnvironmentV1,
    environment.tables.consumed.length = 1 ∧
      ∀ taken ∈ environment.tables.consumed, taken.now < taken.admission.expiresAt := by
  have run : ((supervisorMachine allHandlers).run granting).map
      (fun environment => environment.tables.consumed.length) = some 1 := by decide +kernel
  obtain ⟨environment, reached, one⟩ := Machine.exists_of_run run
  exact ⟨environment, one, fun taken takenIn => ((admissions_takenOnce reached).2 taken takenIn).1⟩

theorem not_grants_live : ¬ ∀ handlers events environment,
    (supervisorMachine handlers).Reaches events environment →
      NamesLive environment.tables ∧ HandedOnce environment.tables := by
  intro claim
  have run : ((supervisorMachine allHandlers).run
      (asking ++ [.calm (.receives (frameBytes closeFrame)), .calm .continues,
        .calm (.returns false), .calm .continues, .calm (.returns false), .calm .continues,
        .calm (.completes 0 (.target (js "a")) 0)])).map
          (fun environment => ((environment.tables.pendingExecutionCommits 5).map
            PendingExecutionCommitV1.processId, (environment.tables.processes 7).isSome)) =
              some (some 7, false) := by decide +kernel
  obtain ⟨environment, reached, fields⟩ := Machine.exists_of_run run
  simp only [Prod.mk.injEq, Option.map_eq_some_iff] at fields
  obtain ⟨⟨commit, entered, named⟩, gone⟩ := fields
  have live := (claim _ _ environment reached).1.commits 5 commit entered
  rw [named, gone] at live
  cases live

end

structure Ended (before after : TablesV1) : Prop where
  closed : after.closed = true
  pending : ∀ requestId, after.pending requestId = none
  commits : ∀ requestId, after.pendingExecutionCommits requestId = none
  admissions : after.networkAdmissions = []
  processes : ∀ processId, (after.processes processId).isSome = true →
    (before.processes processId).isSome = true
  processSources : ∀ processId source, after.processSources processId = some source →
    before.processSources processId = some source
  linuxProcessSources : ∀ processId tree, after.linuxProcessSources processId = some tree →
    before.linuxProcessSources processId = some tree
  invocations : after.invocations = before.invocations

/-- A closed connection has no requests, executions and admissions. -/
def Emptied (tables : TablesV1) : Prop := tables.closed = true → Ended tables tables

namespace HoloUvSupervisorEnvironmentV1

variable (environment : HoloUvSupervisorEnvironmentV1) (event : EventV1)

/-- The action invokes a handler. -/
def started : ActionV1 → Bool
  | .starts _ => true
  | _ => false

def Quiet : Prop :=
  environment.tables.closed = true → started event.action = false ∧
    (∀ done ∈ environment.completed event.action, ¬ environment.Grants done.1 done.2.1 done.2.2) ∧
    ∀ frame ∈ environment.hears event.action,
      frame.operation = .execRequest ∨ frame.operation = .networkRequest →
        environment.tables.processSource frame.processId = none
  deriving Decidable

end HoloUvSupervisorEnvironmentV1

section Tables

variable {before middle after : TablesV1}

theorem Ended.of_fewer (ended : Ended before middle) (closed : after.closed = middle.closed)
    (pending : ∀ requestId, middle.pending requestId = none → after.pending requestId = none)
    (commits : ∀ requestId, middle.pendingExecutionCommits requestId = none →
      after.pendingExecutionCommits requestId = none)
    (admissions : middle.networkAdmissions = [] → after.networkAdmissions = [])
    (processes : ∀ processId, (after.processes processId).isSome = true →
      (middle.processes processId).isSome = true)
    (processSources : ∀ processId source, after.processSources processId = some source →
      middle.processSources processId = some source)
    (linuxProcessSources : ∀ processId tree, after.linuxProcessSources processId = some tree →
      middle.linuxProcessSources processId = some tree)
    (invocations : after.invocations = middle.invocations) : Ended before after where
  closed := by rw [closed, ended.closed]
  pending requestId := pending requestId (ended.pending requestId)
  commits requestId := commits requestId (ended.commits requestId)
  admissions := admissions ended.admissions
  processes processId known := ended.processes processId (processes processId known)
  processSources processId source found :=
    ended.processSources processId source (processSources processId source found)
  linuxProcessSources processId tree found :=
    ended.linuxProcessSources processId tree (linuxProcessSources processId tree found)
  invocations := by rw [invocations, ended.invocations]

theorem Ended.of_same (ended : Ended before middle) (closed : after.closed = middle.closed)
    (pending : ∀ requestId, middle.pending requestId = none → after.pending requestId = none)
    (commits : ∀ requestId, middle.pendingExecutionCommits requestId = none →
      after.pendingExecutionCommits requestId = none)
    (admissions : middle.networkAdmissions = [] → after.networkAdmissions = [])
    (processes : after.processes = middle.processes)
    (processSources : after.processSources = middle.processSources)
    (linuxProcessSources : after.linuxProcessSources = middle.linuxProcessSources)
    (invocations : after.invocations = middle.invocations) : Ended before after := by
  refine ended.of_fewer closed pending commits admissions ?_ ?_ ?_ invocations
  · rw [processes]
    exact fun _ known => known
  · rw [processSources]
    exact fun _ _ found => found
  · rw [linuxProcessSources]
    exact fun _ _ found => found

theorem of_update_none {α : Type} {table : UInt32 → Option α} {key other : UInt32} {value : α}
    (found : Function.update table key none other = some value) : table other = some value := by
  by_cases same : other = key
  · rw [same, Function.update_self] at found
    cases found
  · rwa [Function.update_of_ne same] at found

theorem update_none_of_none {α : Type} {table : UInt32 → Option α} (key other : UInt32)
    (empty : table other = none) : Function.update table key none other = none := by
  cases found : Function.update table key none other with
  | none => rfl
  | some value =>
    rw [of_update_none found] at empty
    cases empty

theorem emptied_fail (tables : TablesV1) (error : ErrorV1)
    (heard : Option (UInt32 → Bool × Bool)) (running : tables.closed = false) :
    Emptied (tables.fail error heard) := by
  intro _
  unfold TablesV1.fail
  rw [if_neg (by rw [running]; decide)]
  exact ⟨rfl, fun _ => rfl, fun _ => rfl, rfl, fun _ known => known, fun _ _ found => found,
    fun _ _ found => found, rfl⟩

theorem fail_of_closed {tables : TablesV1} (closed : tables.closed = true) (error : ErrorV1)
    (heard : Option (UInt32 → Bool × Bool)) : tables.fail error heard = tables := by
  rw [TablesV1.fail, if_pos closed]

end Tables

namespace HoloUvSupervisorEnvironmentV1

variable {environment : HoloUvSupervisorEnvironmentV1} {event : EventV1}

theorem Moves.closed {after : TablesV1} (moves : environment.Moves event after) :
    after.closed = environment.tables.closed := by
  cases moves with
  | consumes address port transport now =>
    rcases consumeNetworkAdmission_cases environment.tables address port transport now with
      same | ⟨index, admission, _, _, consumed⟩
    · rw [same]
      rfl
    · rw [consumed]
      rfl
  | _ => rfl

theorem Moves.ended {before after : TablesV1} (moves : environment.Moves event after)
    (ended : Ended before environment.tables) (quiet : environment.Quiet event) :
    Ended before after := by
  have silent := quiet ended.closed
  have pruned : ∀ now, Ended before (environment.tables.prune now) := by
    intro now
    refine ended.of_same rfl (fun _ none => none) (fun _ none => none) ?_ rfl rfl rfl rfl
    intro none
    show environment.tables.networkAdmissions.filter _ = []
    rw [none]
    rfl
  cases moves with
  | stays => exact ended
  | requests call asked free =>
    have running := open_of_asks asked
    rw [ended.closed] at running
    cases running
  | writeSucceeds =>
    exact ended.of_same rfl (fun _ none => none) (fun _ none => none) id rfl rfl rfl rfl
  | writeFails index terminal error named found =>
    exact ended.of_same rfl (fun other none => update_none_of_none terminal.requestId other none)
      (fun _ none => none) id rfl rfl rfl rfl
  | settles requestId entry settlement found =>
    rw [ended.pending] at found
    cases found
  | spawns requestId processId entry source serial found =>
    rw [ended.pending] at found
    cases found
  | touches processId process known =>
    refine ended.of_fewer rfl (fun _ none => none) (fun _ none => none) id ?_
      (fun _ _ found => found) (fun _ _ found => found) rfl
    intro other there
    have there : (Function.update environment.tables.processes processId (some process)
      other).isSome = true := there
    by_cases same : other = processId
    · rw [same]
      exact known
    · rwa [Function.update_of_ne same] at there
  | removes processId =>
    refine ended.of_fewer rfl (fun _ none => none) ?_ ?_ ?_ ?_ ?_ rfl
    · intro requestId none
      show (environment.tables.pendingExecutionCommits requestId).filter _ = _
      rw [none]
      rfl
    · intro none
      show environment.tables.networkAdmissions.filter _ = []
      rw [none]
      rfl
    · intro other known
      obtain ⟨process, found⟩ := Option.isSome_iff_exists.mp known
      rw [of_update_none found]
      rfl
    · exact fun _ _ found => of_update_none found
    · exact fun _ _ found => of_update_none found
  | plants frame tree heard asked known =>
    rw [silent.2.2 frame heard asked] at known
    cases known
  | grants job outcome now caller text done granted =>
    exact absurd granted (silent.2.1 (job, outcome, now) done)
  | revokes requestId =>
    exact ended.of_same rfl (fun _ none => none)
      (fun other none => update_none_of_none requestId other none) id rfl rfl rfl rfl
  | replaces requestId processId commit tree found =>
    rw [ended.commits] at found
    cases found
  | prunes now => exact pruned now
  | admits job outcome now source request done granted =>
    exact absurd granted (silent.2.1 (job, outcome, now) done)
  | consumes address port transport now =>
    rcases consumeNetworkAdmission_cases environment.tables address port transport now with
      same | ⟨index, admission, found, _, _⟩
    · rw [same]
      exact pruned now
    · rw [(pruned now).admissions] at found
      cases found
  | invokes index named =>
    have starts := silent.1
    rw [named] at starts
    cases starts

theorem Settled.ended {before after : TablesV1} (settled : Settled environment event after)
    (ended : Ended before environment.tables) (quiet : environment.Quiet event) :
    Ended before after := by
  obtain ⟨moved, moves, ends⟩ := settled
  have kept := moves.ended ended quiet
  rcases ends with same | ⟨error, heard, failed⟩
  · rw [same]
    exact kept
  · rw [failed, fail_of_closed kept.closed]
    exact kept

theorem Settled.emptied {after : TablesV1} (settled : Settled environment event after)
    (emptied : Emptied environment.tables) (quiet : environment.Quiet event) : Emptied after := by
  by_cases closed : environment.tables.closed = true
  · intro _
    have later := settled.ended (emptied closed) quiet
    exact ⟨later.closed, later.pending, later.commits, later.admissions, fun _ known => known,
      fun _ _ found => found, fun _ _ found => found, rfl⟩
  · rw [Bool.not_eq_true] at closed
    obtain ⟨moved, moves, ends⟩ := settled
    have running : moved.closed = false := by rw [moves.closed, closed]
    rcases ends with same | ⟨error, heard, failed⟩
    · intro ended
      rw [same, running] at ended
      cases ended
    · rw [failed]
      exact emptied_fail moved error heard running

end HoloUvSupervisorEnvironmentV1

open HoloUvSupervisorEnvironmentV1

/-- The guest asks for a file. -/
def filesystemFrame : ProcessSupervisorFrameV1 := ⟨.filesystemRequest, [], 0, 3, 0⟩

/-- A chunk asks for a file and breaks the protocol behind it. -/
def breaking : List EventV1 :=
  [.calm .attach, .calm (.receives (frameBytes readyFrame ++ (frameBytes filesystemFrame ++
    frameBytes readyFrame))), .calm .continues, .calm .continues, .calm .continues]

end Holonomy.Supervisor
