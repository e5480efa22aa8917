import Holonomy.Process.Resources

/-!
# Process quotas

The manager counts exactly: the open pipes are those of the active processes and of the spawns
inside their ports, the active processes and everything that was admitted are within their limits,
and a process leaves once, when its close event is delivered. That is so as long as no spawn fails
behind the admission of its process, no spawn fails between its charge and its port, spawns inside
their ports are counted against the limit, close events are admissible, and the requests for the
descendants of a process name one root.
-/

namespace Holonomy.Process

open Foundation

/-! ## The process resource manager

The calls of the manager and what its port, the runtime and the clock do to it.
-/

/-- A call of `spawn`. -/
structure SpawnRequest where
  executableId : ℕ
  stdio : List StdioValue
  maxBufferBytes : Option ℕ
  authorityProcessLimit : ℕ
  canonical : Bool

/-- How the port ends a spawn. -/
inductive PortOutcome where
  | threw
  | invalidHandle
  | returned
deriving DecidableEq

/-- A spawn at work. -/
structure SpawnCall where
  id : ℕ
  /-- The process was admitted, and the spawn replays its events. -/
  admitted : Bool
deriving DecidableEq

structure Descendant where
  processResourceId : ℕ
  linuxPid : ℕ
  processStartTimeTicks : ℕ
deriving DecidableEq

structure ProcessResourceManager where
  processes : List ProcessState
  calls : List SpawnCall
  active : List ℕ
  linuxTrees : List (ℕ × LinuxTree)
  openPipes : ℤ
  total : ℕ
  signalled : List ℕ
  admitted : List ℕ
  departed : List ℕ
  failed : List ℕ
  /-- The number of synchronous processes that were admitted. -/
  synchronous : ℕ
  descendants : List Descendant

/-- What can happen. -/
inductive ProcessEvent where
  | reserveSync (stdio : List StdioValue) (authorityProcessLimit : ℕ)
  | spawn (request : SpawnRequest)
  | ported (outcome : PortOutcome)
  | replayed
  /-- The innermost spawn is completed, or its completion is refused. -/
  | completed (accepted : Bool)
  | reported (id : ℕ) (event : SinkEvent)
  | reserveDescendant (source : LinuxSource) (input : DescendantRequest)
  | timedOut (id : ℕ)
  | signal (id : ℕ)
  | close

namespace ProcessResourceManager

variable (limits : ProcessLimits)

def pipesOf (manager : ProcessResourceManager) (id : ℕ) : ℕ :=
  (manager.processes[id]?.map ProcessState.pipeCount).getD 0

/-- Charge a process, or refuse it. -/
def reserve (manager : ProcessResourceManager) (stdio : List StdioValue)
    (authorityProcessLimit : ℕ) : Except InvocationErrorCode ℕ :=
  if stdio.length ≠ 3 ∨ .other ∈ stdio then .error .argumentInvalid
  else
    let pipeCount := stdio.count .pipe
    if min limits.maxConcurrentProcesses authorityProcessLimit ≤ manager.active.length ∨
        limits.maxTotalProcesses ≤ manager.total ∨
        (limits.maxOpenPipes : ℤ) < manager.openPipes + pipeCount then
      .error .resourceHandleLimit
    else .ok pipeCount

def depart (manager : ProcessResourceManager) (id : ℕ) : ProcessResourceManager :=
  { manager with
    active := manager.active.erase id
    linuxTrees := manager.linuxTrees.filter fun tree => tree.1 ≠ id
    openPipes := manager.openPipes - manager.pipesOf id
    departed := manager.departed ++ [id] }

def closeState (manager : ProcessResourceManager) (id : ℕ) : ProcessResourceManager :=
  if id ∈ manager.active then { manager with signalled := manager.signalled ++ [id] } else manager

def put (manager : ProcessResourceManager) (id : ℕ) (process : ProcessState) :
    ProcessResourceManager :=
  { manager with processes := manager.processes.set id process }

/-- What remains of an event that was handled. -/
def settle (manager : ProcessResourceManager) (id : ℕ) (handled : Handled) :
    ProcessResourceManager :=
  let handledManager := manager.put id handled.process
  let departed := if handled.leaves then handledManager.depart id else handledManager
  if handled.kills then departed.closeState id else departed

def throwsAt (manager : ProcessResourceManager) (id : ℕ) (process : ProcessState)
    (event : SinkEvent) : Bool :=
  let handled := process.handle event
  handled.throws || (handled.kills && id ∈ manager.active && event.refused)

def report (manager : ProcessResourceManager) (id : ℕ) (event : SinkEvent) :
    ProcessResourceManager :=
  match manager.processes[id]? with
  | none => manager
  | some process =>
    if process.ready then manager.settle id (process.handle event)
    else manager.put id (process.stage event)

def charge (manager : ProcessResourceManager) (pipeCount : ℕ) : ProcessResourceManager :=
  { manager with total := manager.total + 1, openPipes := manager.openPipes + pipeCount }

/-- A spawn enters its port. -/
def enter (manager : ProcessResourceManager) (process : ProcessState) : ProcessResourceManager :=
  { manager with
    processes := manager.processes ++ [process]
    calls := ⟨manager.processes.length, false⟩ :: manager.calls }

def spawn (manager : ProcessResourceManager) (request : SpawnRequest) : ProcessResourceManager :=
  match manager.reserve limits request.stdio request.authorityProcessLimit with
  | .error _ => manager
  | .ok pipeCount =>
    if request.canonical then
      (manager.charge pipeCount).enter
        (.new limits request.executableId pipeCount request.maxBufferBytes)
    else manager.charge pipeCount

def refuse (manager : ProcessResourceManager) (id : ℕ) (calls : List SpawnCall) :
    ProcessResourceManager :=
  { manager with
    calls := calls
    openPipes := manager.openPipes - manager.pipesOf id
    failed := manager.failed ++ [id] }

def admitProcess (manager : ProcessResourceManager) (id : ℕ) (process : ProcessState)
    (calls : List SpawnCall) : ProcessResourceManager :=
  { manager.put id { process with ready := true } with
    calls := ⟨id, true⟩ :: calls
    active := manager.active ++ [id]
    admitted := manager.admitted ++ [id] }

def endPort (manager : ProcessResourceManager) (outcome : PortOutcome) :
    Option ProcessResourceManager :=
  match manager.calls with
  | ⟨id, false⟩ :: calls => match manager.processes[id]? with
    | some process =>
      if outcome = .returned ∧ process.overflow = false then
        some (manager.admitProcess id process calls)
      else some (manager.refuse id calls)
    | none => none
  | _ => none

def abort (manager : ProcessResourceManager) (id : ℕ) (calls : List SpawnCall) :
    ProcessResourceManager :=
  { manager with calls := calls, failed := manager.failed ++ [id] }

def replay (manager : ProcessResourceManager) : Option ProcessResourceManager :=
  match manager.calls with
  | ⟨id, true⟩ :: calls => match manager.processes[id]? with
    | some process => match process.queued with
      | [] => none
      | event :: queued =>
        let next := { process with queued := queued }
        let settled := manager.settle id (next.handle event)
        if manager.throwsAt id next event then some (settled.abort id calls) else some settled
    | none => none
  | _ => none

/-- The innermost spawn ends, when all its events were replayed. -/
def complete (manager : ProcessResourceManager) (accepted : Bool) :
    Option ProcessResourceManager :=
  match manager.calls with
  | ⟨id, true⟩ :: calls => match manager.processes[id]? with
    | some process =>
      if process.queued = [] then
        if accepted then some { manager with calls := calls } else some (manager.abort id calls)
      else none
    | none => none
  | _ => none

def treeOf (manager : ProcessResourceManager) (id : ℕ) : Option LinuxTree :=
  (manager.linuxTrees.find? fun tree => tree.1 = id).map Prod.snd

def descendantOf (source : LinuxSource) (input : DescendantRequest) : Descendant :=
  ⟨source.processResourceId, input.linuxPid, input.processStartTimeTicks⟩

/-- Charge a descendant, or refuse it. -/
def reserveDescendant (manager : ProcessResourceManager) (source : LinuxSource)
    (input : DescendantRequest) : Except InvocationErrorCode ProcessResourceManager :=
  match manager.processes[source.processResourceId]? with
  | none => .error .resourceStale
  | some process =>
    if source.processResourceId ∈ manager.active then
      match reserveProcessDescendant limits manager.total process.executableId source input
          (manager.treeOf source.processResourceId) with
      | .error code => .error code
      | .ok result => .ok { manager with
          linuxTrees := (source.processResourceId, result.tree) ::
            manager.linuxTrees.filter fun tree => tree.1 ≠ source.processResourceId
          total := manager.total + result.totalIncrement
          descendants := if input.linuxPid = source.rootLinuxPid then manager.descendants
            else manager.descendants ++ [descendantOf source input] }
    else .error .resourceStale

def timeOut (manager : ProcessResourceManager) (id : ℕ) : ProcessResourceManager :=
  match manager.processes[id]? with
  | none => manager
  | some process => (manager.put id (process.tell .error)).closeState id

def isTimed (manager : ProcessResourceManager) (id : ℕ) : Bool :=
  id ∈ manager.admitted && id ∉ manager.departed

def reserveSync (manager : ProcessResourceManager) (stdio : List StdioValue)
    (authorityProcessLimit : ℕ) : ProcessResourceManager :=
  match manager.reserve limits stdio authorityProcessLimit with
  | .error _ => manager
  | .ok _ => { manager with
      total := manager.total + 1
      synchronous := manager.synchronous + 1 }

/-- What follows. -/
def step (manager : ProcessResourceManager) : ProcessEvent → Option ProcessResourceManager
  | .reserveSync stdio authorityProcessLimit =>
    some (manager.reserveSync limits stdio authorityProcessLimit)
  | .spawn request => some (manager.spawn limits request)
  | .ported outcome => manager.endPort outcome
  | .replayed => manager.replay
  | .completed accepted => manager.complete accepted
  | .reported id event => some (manager.report id event)
  | .reserveDescendant source input => match manager.reserveDescendant limits source input with
    | .error _ => some manager
    | .ok next => some next
  | .timedOut id => if manager.isTimed id then some (manager.timeOut id) else none
  | .signal id => some (manager.closeState id)
  | .close => some { manager with signalled := manager.signalled ++ manager.active }

def new : ProcessResourceManager where
  processes := []
  calls := []
  active := []
  linuxTrees := []
  openPipes := 0
  total := 0
  signalled := []
  admitted := []
  departed := []
  failed := []
  synchronous := 0
  descendants := []

def machine : Machine ProcessResourceManager ProcessEvent := ⟨new, step limits⟩

/-- The spawns inside their ports. -/
def starting (manager : ProcessResourceManager) : List ℕ :=
  (manager.calls.filter fun call => !call.admitted).map SpawnCall.id

variable (limits : ProcessLimits)

section Property

def pipeSum (manager : ProcessResourceManager) (ids : List ℕ) : ℕ :=
  (ids.map manager.pipesOf).sum

/-- The quotas are exact. -/
structure Exact (manager : ProcessResourceManager) : Prop where
  pipes : manager.openPipes = manager.pipeSum (manager.active ++ manager.starting)
  pipesBounded : manager.openPipes ≤ limits.maxOpenPipes
  concurrent : manager.active.length ≤ limits.maxConcurrentProcesses
  charged : manager.admitted.length + manager.synchronous + manager.descendants.dedup.length
    ≤ manager.total
  totalBounded : manager.total ≤ limits.maxTotalProcesses
  once : (manager.active ++ manager.departed).Perm manager.admitted ∧ manager.admitted.Nodup
  /-- A process has left when its close event was delivered. -/
  closed : ∀ id process, manager.processes[id]? = some process →
    (process.closed = true ↔ id ∈ manager.departed)
  spotless : ∀ id ∈ manager.failed, id ∉ manager.active

def loses (process : ProcessState) (event : SinkEvent) : Bool :=
  !process.closed && event = .close false && process.childEvents.accepts .close 0

def delivers (manager : ProcessResourceManager) (id : ℕ) (event : SinkEvent) : Bool :=
  match manager.processes[id]? with
  | none => true
  | some process => !process.ready || !loses process event

def replays (manager : ProcessResourceManager) : Bool :=
  match manager.calls with
  | ⟨id, true⟩ :: _ => match manager.processes[id]? with
    | some process => match process.queued with
      | event :: queued => !manager.throwsAt id { process with queued := queued } event
      | [] => true
    | none => true
  | _ => true

def hasLeft (manager : ProcessResourceManager) : Bool :=
  match manager.calls with
  | ⟨id, _⟩ :: _ => id ∈ manager.departed
  | [] => true

def begins (manager : ProcessResourceManager) (request : SpawnRequest) : Bool :=
  match manager.reserve limits request.stdio request.authorityProcessLimit with
  | .error _ => true
  | .ok pipeCount => (request.canonical || pipeCount = 0) &&
      manager.active.length + manager.starting.length < limits.maxConcurrentProcesses

def namesRoot (manager : ProcessResourceManager) (source : LinuxSource) : Bool :=
  match manager.treeOf source.processResourceId with
  | none => true
  | some tree => tree.root = source.rootLinuxPid

/-- The event keeps the quotas exact. -/
def isOrderly (manager : ProcessResourceManager) : ProcessEvent → Bool
  | .spawn request => manager.begins limits request
  | .replayed => manager.replays
  | .completed accepted => accepted || manager.hasLeft
  | .reported id event => manager.delivers id event
  | .reserveDescendant source _ => manager.namesRoot source
  | _ => true

end Property

section Books

/-- What the manager keeps. -/
structure Kept (manager : ProcessResourceManager) : Prop where
  pipes : manager.openPipes = manager.pipeSum (manager.active ++ manager.starting)
  pipesBounded : manager.openPipes ≤ limits.maxOpenPipes
  concurrent : manager.active.length + manager.starting.length ≤ limits.maxConcurrentProcesses
  charged : manager.processes.length + manager.synchronous + manager.descendants.dedup.length
    ≤ manager.total
  totalBounded : manager.total ≤ limits.maxTotalProcesses
  once : (manager.active ++ manager.departed).Perm manager.admitted
  distinct : (manager.admitted ++ manager.starting).Nodup
  present : ∀ id ∈ manager.admitted ++ manager.starting, id < manager.processes.length
  readied : ∀ id process, manager.processes[id]? = some process →
    (process.ready = true ↔ id ∈ manager.admitted)
  closed : ∀ id process, manager.processes[id]? = some process →
    (process.closed = true ↔ id ∈ manager.departed)
  replaying : ∀ call ∈ manager.calls, call.admitted = true → call.id ∈ manager.admitted
  spotless : ∀ id ∈ manager.failed, id < manager.processes.length ∧
    id ∉ manager.active ∧ id ∉ manager.starting
  trees : ∀ entry ∈ manager.linuxTrees, ∀ pid time, pid ≠ entry.2.root →
    entry.2.startOf pid = some time → (⟨entry.1, pid, time⟩ : Descendant) ∈ manager.descendants

end Books

section Sinks

/-- The parts of a process that events leave as they are. -/
def Alike (process next : ProcessState) : Prop :=
  next.pipeCount = process.pipeCount ∧ next.ready = process.ready ∧ next.closed = process.closed

section

variable (process : ProcessState)

include process

theorem alike_tellReaders (stream : OutputStream) (event : ChannelEvent)
    (bytes : ℕ) : Alike process (process.tellReaders stream event bytes) := by
  cases stream <;> exact ⟨rfl, rfl, rfl⟩

theorem alike_readable (stream : OutputStream) (bytes : Option ℕ)
    (described : Bool) : (process.readable stream bytes described).leaves = false ∧
      Alike process (process.readable stream bytes described).process := by
  rw [ProcessState.readable]
  split
  · exact ⟨rfl, rfl, rfl, rfl⟩
  · split
    · exact ⟨rfl, alike_tellReaders _ _ _ _⟩
    · cases stream <;> exact ⟨rfl, rfl, rfl, rfl⟩

theorem alike_exit (admissible : Bool) :
    (process.exit admissible).leaves = false ∧ Alike process (process.exit admissible).process := by
  rw [ProcessState.exit]
  split <;> exact ⟨rfl, rfl, rfl, rfl⟩

theorem leave_process (admissible : Bool) :
    (process.leave admissible).process.pipeCount = process.pipeCount ∧
      (process.leave admissible).process.ready = process.ready ∧
      (process.leave admissible).process.closed = true := by
  rw [ProcessState.leave]
  split <;> exact ⟨rfl, rfl, rfl⟩

theorem handle_cases (event : SinkEvent) (kept : loses process event = false) :
    ((process.handle event).leaves = true ∧ process.closed = false ∧
        (process.handle event).process.pipeCount = process.pipeCount ∧
        (process.handle event).process.ready = process.ready ∧
        (process.handle event).process.closed = true) ∨
      ((process.handle event).leaves = false ∧ Alike process (process.handle event).process) := by
  have same : Alike process process := ⟨rfl, rfl, rfl⟩
  cases event with
  | spawn =>
    right
    rw [ProcessState.handle]
    split <;> exact ⟨rfl, rfl, rfl, rfl⟩
  | error =>
    right
    rw [ProcessState.handle]
    split <;> exact ⟨rfl, rfl, rfl, rfl⟩
  | exit admissible =>
    right
    rw [ProcessState.handle]
    split
    · exact ⟨rfl, same⟩
    · exact alike_exit process admissible
  | close admissible =>
    rw [ProcessState.handle]
    by_cases over_ : process.closed = true
    · rw [if_pos over_]
      exact .inr ⟨rfl, same⟩
    · rw [if_neg over_]
      left
      have isOpen : process.closed = false := by simpa using over_
      obtain ⟨pipes, ready, closed⟩ := leave_process process admissible
      refine ⟨?_, isOpen, pipes, ready, closed⟩
      have delivered : (admissible || !process.childEvents.accepts .close 0) = true := by
        cases admissible with
        | true => rfl
        | false =>
          rw [loses, isOpen] at kept
          simpa using kept
      rw [ProcessState.leave, if_pos delivered]
  | output stream bytes described refused =>
    right
    rw [ProcessState.handle]
    split
    · exact ⟨rfl, same⟩
    · exact alike_readable process stream bytes described
  | stdinError => exact .inr ⟨rfl, same⟩
  | stdinClose => exact .inr ⟨rfl, rfl, rfl, rfl⟩
  | stdinCallback => exact .inr ⟨rfl, same⟩
  | _ =>
    right
    rw [ProcessState.handle]
    split
    · exact ⟨rfl, same⟩
    · exact ⟨rfl, alike_tellReaders _ _ _ _⟩

theorem alike_stage (event : SinkEvent) : Alike process (process.stage event) := by
  rw [ProcessState.stage]
  split
  · exact ⟨rfl, rfl, rfl⟩
  · split
    · exact ⟨rfl, rfl, rfl⟩
    · split <;> exact ⟨rfl, rfl, rfl⟩

end

end Sinks

section Processes

variable {limits} {manager : ProcessResourceManager} {id : ℕ} {process next : ProcessState}

theorem pipesOf_put (found : manager.processes[id]? = some process)
    (same : next.pipeCount = process.pipeCount) (other : ℕ) :
    (manager.put id next).pipesOf other = manager.pipesOf other := by
  rw [pipesOf, pipesOf, put, List.getElem?_set]
  by_cases here : id = other
  · obtain ⟨inside, -⟩ := List.getElem?_eq_some_iff.mp found
    rw [if_pos here, if_pos inside, ← here, found]
    exact same
  · rw [if_neg here]

theorem found_put {other : ℕ} {content : ProcessState}
    (found : (manager.put id next).processes[other]? = some content) :
    (other = id ∧ content = next) ∨ (other ≠ id ∧ manager.processes[other]? = some content) := by
  rw [put, List.getElem?_set] at found
  by_cases here : id = other
  · rw [if_pos here] at found
    split at found
    · exact .inl ⟨here.symm, (Option.some.inj found).symm⟩
    · cases found
  · rw [if_neg here] at found
    exact .inr ⟨fun same => here same.symm, found⟩

theorem pipeSum_congr {other : ProcessResourceManager} {ids : List ℕ}
    (same : ∀ id ∈ ids, other.pipesOf id = manager.pipesOf id) :
    other.pipeSum ids = manager.pipeSum ids :=
  congrArg List.sum (List.map_congr_left same)

theorem Kept.put (kept : manager.Kept limits) (found : manager.processes[id]? = some process)
    (alike : Alike process next) : (manager.put id next).Kept limits := by
  have length : (manager.put id next).processes.length = manager.processes.length :=
    List.length_set
  have pipes : ∀ ids, (manager.put id next).pipeSum ids = manager.pipeSum ids :=
    fun ids => pipeSum_congr fun other _ => pipesOf_put found alike.1 other
  have readied : ∀ other content, (manager.put id next).processes[other]? = some content →
      (content.ready = true ↔ other ∈ manager.admitted) := by
    intro other content isContent
    cases found_put isContent with
    | inl here =>
      rw [here.1, here.2, alike.2.1]
      exact kept.readied id process found
    | inr elsewhere => exact kept.readied other content elsewhere.2
  have closed : ∀ other content, (manager.put id next).processes[other]? = some content →
      (content.closed = true ↔ other ∈ manager.departed) := by
    intro other content isContent
    cases found_put isContent with
    | inl here =>
      rw [here.1, here.2, alike.2.2]
      exact kept.closed id process found
    | inr elsewhere => exact kept.closed other content elsewhere.2
  constructor
  · rw [pipes]
    exact kept.pipes
  · exact kept.pipesBounded
  · exact kept.concurrent
  · rw [length]
    exact kept.charged
  · exact kept.totalBounded
  · exact kept.once
  · exact kept.distinct
  · rw [length]
    exact kept.present
  · exact readied
  · exact closed
  · exact kept.replaying
  · rw [length]
    exact kept.spotless
  · exact kept.trees

theorem Kept.nodup (kept : manager.Kept limits) :
    (manager.active ++ manager.departed).Nodup :=
  kept.once.nodup_iff.mpr kept.distinct.of_append_left

theorem Kept.isActive (kept : manager.Kept limits)
    (found : manager.processes[id]? = some process) (ready : process.ready = true)
    (isOpen : process.closed = false) : id ∈ manager.active := by
  have listed : id ∈ manager.active ++ manager.departed :=
    kept.once.mem_iff.mpr ((kept.readied id process found).mp ready)
  have stays : id ∉ manager.departed := by
    intro left
    have closed := (kept.closed id process found).mpr left
    rw [isOpen] at closed
    cases closed
  exact (List.mem_append.mp listed).resolve_right stays

theorem pipeSum_erase {ids others : List ℕ} (listed : id ∈ ids) :
    manager.pipeSum (ids ++ others)
      = manager.pipesOf id + manager.pipeSum (ids.erase id ++ others) := by
  have perm : (ids ++ others).Perm (id :: (ids.erase id ++ others)) :=
    (List.perm_cons_erase listed).append_right others
  exact (perm.map manager.pipesOf).sum_nat

/-- A process that leaves keeps the books. -/
theorem Kept.depart (kept : manager.Kept limits) (found : manager.processes[id]? = some process)
    (ready : process.ready = true) (isOpen : process.closed = false)
    (samePipes : next.pipeCount = process.pipeCount) (stillReady : next.ready = process.ready)
    (closes : next.closed = true) : ((manager.put id next).depart id).Kept limits := by
  have active := kept.isActive found ready isOpen
  have length : ((manager.put id next).depart id).processes.length = manager.processes.length :=
    List.length_set
  have pipes : ∀ other, ((manager.put id next).depart id).pipesOf other = manager.pipesOf other :=
    pipesOf_put found samePipes
  have distinct := kept.nodup
  have moved : (manager.active.erase id ++ (manager.departed ++ [id])).Perm
      (manager.active ++ manager.departed) := by
    have first : (manager.active ++ manager.departed).Perm
        (id :: (manager.active.erase id ++ manager.departed)) :=
      (List.perm_cons_erase active).append_right _
    rw [← List.append_assoc]
    exact (List.perm_append_singleton id _).trans first.symm
  have absent : id ∉ manager.active.erase id := by
    rw [distinct.of_append_left.mem_erase_iff]
    exact fun both => both.1 rfl
  have readied : ∀ other content,
      ((manager.put id next).depart id).processes[other]? = some content →
        (content.ready = true ↔ other ∈ manager.admitted) := by
    intro other content isContent
    cases found_put isContent with
    | inl here =>
      rw [here.1, here.2, stillReady]
      exact kept.readied id process found
    | inr elsewhere => exact kept.readied other content elsewhere.2
  have closed : ∀ other content,
      ((manager.put id next).depart id).processes[other]? = some content →
        (content.closed = true ↔ other ∈ manager.departed ++ [id]) := by
    intro other content isContent
    cases found_put isContent with
    | inl here =>
      rw [here.1, here.2]
      exact ⟨fun _ => List.mem_append_right _ (List.mem_singleton.mpr rfl), fun _ => closes⟩
    | inr elsewhere =>
      rw [kept.closed other content elsewhere.2, List.mem_append, List.mem_singleton]
      exact ⟨fun left => .inl left, fun either => either.resolve_right elsewhere.1⟩
  have total : manager.pipeSum (manager.active ++ manager.starting)
      = manager.pipesOf id + manager.pipeSum (manager.active.erase id ++ manager.starting) :=
    pipeSum_erase active
  have counted := kept.pipes
  have bounded := kept.pipesBounded
  have remaining : manager.openPipes - manager.pipesOf id
      = manager.pipeSum (manager.active.erase id ++ manager.starting) := by
    rw [counted, total]
    push_cast
    omega
  constructor
  · change manager.openPipes - (manager.put id next).pipesOf id = _
    rw [pipeSum_congr fun other _ => pipes other, pipesOf_put found samePipes id]
    exact remaining
  · change manager.openPipes - (manager.put id next).pipesOf id ≤ _
    rw [pipesOf_put found samePipes id]
    omega
  · have room := kept.concurrent
    have fewer : (manager.active.erase id).length ≤ manager.active.length :=
      List.length_erase_le
    change (manager.active.erase id).length + manager.starting.length ≤ _
    omega
  · rw [length]
    exact kept.charged
  · exact kept.totalBounded
  · exact moved.trans kept.once
  · exact kept.distinct
  · rw [length]
    exact kept.present
  · exact readied
  · exact closed
  · exact kept.replaying
  · rw [length]
    intro other isFailed
    obtain ⟨inside, inactive, outside⟩ := kept.spotless other isFailed
    exact ⟨inside, fun listed => inactive (List.mem_of_mem_erase listed), outside⟩
  · intro entry entryIn
    exact kept.trees entry (List.mem_of_mem_filter entryIn)

theorem Kept.closeState (kept : manager.Kept limits) (id : ℕ) :
    (manager.closeState id).Kept limits := by
  rw [ProcessResourceManager.closeState]
  split
  · exact { kept with }
  · exact kept

theorem Kept.settle (kept : manager.Kept limits) (found : manager.processes[id]? = some process)
    (ready : process.ready = true) {event : SinkEvent} (delivered : loses process event = false) :
    (manager.settle id (process.handle event)).Kept limits := by
  have settled : (if (process.handle event).leaves = true then
      (manager.put id (process.handle event).process).depart id
        else manager.put id (process.handle event).process).Kept limits := by
    cases handle_cases process event delivered with
    | inl leaves =>
      obtain ⟨departs, isOpen, pipes, stillReady, closes⟩ := leaves
      rw [if_pos departs]
      exact kept.depart found ready isOpen pipes stillReady closes
    | inr stays =>
      rw [if_neg (by simp [stays.1])]
      exact kept.put found stays.2
  rw [ProcessResourceManager.settle]
  split
  · exact settled.closeState id
  · exact settled

end Processes

end ProcessResourceManager

end Holonomy.Process
