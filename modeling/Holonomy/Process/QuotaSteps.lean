import Holonomy.Process.Quotas

/-!
# Steps and runs of the manager

Every orderly event keeps the books, so the quotas are exact in every state that an orderly run
reaches. A spawn whose completion is refused, because the runtime was cancelled meanwhile, fails
with its process still active.
-/

namespace Holonomy.Process

open Foundation

namespace ProcessResourceManager

variable {limits : ProcessLimits} {manager : ProcessResourceManager}

section Spawning

variable {id : ℕ} {new : ProcessState}

theorem reserve_ok {stdio : List StdioValue} {limit pipeCount : ℕ}
    (reserved : manager.reserve limits stdio limit = .ok pipeCount) :
    manager.total < limits.maxTotalProcesses ∧
      manager.openPipes + pipeCount ≤ limits.maxOpenPipes := by
  rw [reserve] at reserved
  split at reserved
  · cases reserved
  · simp only at reserved
    split at reserved
    · cases reserved
    · next within =>
      have same : stdio.count .pipe = pipeCount := Except.ok.inj reserved
      rw [same] at within
      omega

section

variable (kept : manager.Kept limits)

include kept

theorem Kept.reserveSync (stdio : List StdioValue) (limit : ℕ) :
    (manager.reserveSync limits stdio limit).Kept limits := by
  rw [ProcessResourceManager.reserveSync]
  cases reserved : manager.reserve limits stdio limit with
  | error code => exact kept
  | ok pipeCount =>
    obtain ⟨below, -⟩ := reserve_ok reserved
    have charged := kept.charged
    have more : manager.processes.length + (manager.synchronous + 1)
        + manager.descendants.dedup.length ≤ manager.total + 1 := by omega
    have bounded : manager.total + 1 ≤ limits.maxTotalProcesses := by omega
    exact { kept with charged := more, totalBounded := bounded }

theorem Kept.is_old :
    manager.processes.length ∉ manager.admitted ++ manager.starting :=
  fun listed => absurd (kept.present _ listed) (lt_irrefl _)

theorem Kept.admitted_of_active (active : id ∈ manager.active) :
    id ∈ manager.admitted :=
  kept.once.mem_iff.mp (List.mem_append_left _ active)

theorem Kept.admitted_of_departed (departed : id ∈ manager.departed) :
    id ∈ manager.admitted :=
  kept.once.mem_iff.mp (List.mem_append_right _ departed)

end

theorem found_append {processes : List ProcessState} {content : ProcessState}
    (found : (processes ++ [new])[id]? = some content) :
    (id = processes.length ∧ content = new) ∨ processes[id]? = some content := by
  rw [List.getElem?_append] at found
  split at found
  · exact .inr found
  · next outside =>
    left
    have inside : id - processes.length < 1 := by
      obtain ⟨inside, -⟩ := List.getElem?_eq_some_iff.mp found
      exact inside
    have zero : id - processes.length = 0 := by omega
    rw [zero] at found
    exact ⟨by omega, (Option.some.inj found).symm⟩

theorem pipesOf_append (processes : List ProcessState) (new : ProcessState)
    (inside : id < processes.length) :
    (((processes ++ [new])[id]?.map ProcessState.pipeCount).getD 0)
      = ((processes[id]?.map ProcessState.pipeCount).getD 0) := by
  rw [List.getElem?_append_left inside]

/-- A spawn that enters its port keeps the books. -/
theorem Kept.enter (kept : manager.Kept limits) (isOpen : new.closed = false)
    (unready : new.ready = false) (below : manager.total < limits.maxTotalProcesses)
    (pipes : manager.openPipes + new.pipeCount ≤ limits.maxOpenPipes)
    (room : manager.active.length + manager.starting.length < limits.maxConcurrentProcesses) :
    ((manager.charge new.pipeCount).enter new).Kept limits := by
  have old := kept.is_old
  have started : ((manager.charge new.pipeCount).enter new).starting
      = manager.processes.length :: manager.starting := rfl
  have longer : ((manager.charge new.pipeCount).enter new).processes.length
      = manager.processes.length + 1 := by
    change (manager.processes ++ [new]).length = _
    rw [List.length_append, List.length_singleton]
  have listed : ∀ id ∈ manager.active ++ manager.starting, id < manager.processes.length := by
    intro id idIn
    apply kept.present
    cases List.mem_append.mp idIn with
    | inl active => exact List.mem_append_left _ (kept.admitted_of_active active)
    | inr starting => exact List.mem_append_right _ starting
  have same : ∀ id ∈ manager.active ++ manager.starting,
      ((manager.charge new.pipeCount).enter new).pipesOf id = manager.pipesOf id :=
    fun id idIn => pipesOf_append manager.processes new (listed id idIn)
  have own : ((manager.charge new.pipeCount).enter new).pipesOf manager.processes.length
      = new.pipeCount := by
    change (((manager.processes ++ [new])[manager.processes.length]?.map
      ProcessState.pipeCount).getD 0) = _
    rw [List.getElem?_concat_length]
    rfl
  have perm : (manager.active ++ manager.processes.length :: manager.starting).Perm
      (manager.processes.length :: (manager.active ++ manager.starting)) :=
    List.perm_middle
  constructor
  · rw [started]
    change manager.openPipes + new.pipeCount = _
    have sum : ((manager.charge new.pipeCount).enter new).pipeSum
        (manager.active ++ manager.processes.length :: manager.starting)
          = new.pipeCount + manager.pipeSum (manager.active ++ manager.starting) := by
      rw [pipeSum, (perm.map _).sum_nat, List.map_cons, List.sum_cons, own]
      congr 1
      exact pipeSum_congr same
    change _ = (((manager.charge new.pipeCount).enter new).pipeSum
      (manager.active ++ manager.processes.length :: manager.starting) : ℤ)
    rw [sum, kept.pipes]
    push_cast
    omega
  · exact pipes
  · rw [started, List.length_cons]
    change manager.active.length + (manager.starting.length + 1) ≤ _
    omega
  · have charged := kept.charged
    rw [longer]
    change manager.processes.length + 1 + manager.synchronous
      + manager.descendants.dedup.length ≤ manager.total + 1
    omega
  · exact below
  · exact kept.once
  · rw [started]
    have middle : (manager.admitted ++ manager.processes.length :: manager.starting).Perm
        (manager.processes.length :: (manager.admitted ++ manager.starting)) :=
      List.perm_middle
    exact middle.nodup_iff.mpr (List.nodup_cons.mpr ⟨old, kept.distinct⟩)
  · rw [started, longer]
    intro id idIn
    have middle : (manager.admitted ++ manager.processes.length :: manager.starting).Perm
        (manager.processes.length :: (manager.admitted ++ manager.starting)) :=
      List.perm_middle
    cases List.mem_cons.mp (middle.mem_iff.mp idIn) with
    | inl first => omega
    | inr rest => exact Nat.lt_succ_of_lt (kept.present id rest)
  · intro id content found
    cases found_append found with
    | inl here =>
      rw [here.1, here.2, unready]
      apply iff_of_false Bool.false_ne_true
      exact fun isAdmitted => old (List.mem_append_left _ isAdmitted)
    | inr before => exact kept.readied id content before
  · intro id content found
    cases found_append found with
    | inl here =>
      rw [here.1, here.2, isOpen]
      apply iff_of_false Bool.false_ne_true
      exact fun left => old (List.mem_append_left _ (kept.admitted_of_departed left))
    | inr before => exact kept.closed id content before
  · intro call callIn isAdmitted
    cases List.mem_cons.mp callIn with
    | inl first =>
      rw [first] at isAdmitted
      cases isAdmitted
    | inr rest => exact kept.replaying call rest isAdmitted
  · intro id isFailed
    obtain ⟨inside, inactive, outside⟩ := kept.spotless id isFailed
    rw [started, longer]
    refine ⟨Nat.lt_succ_of_lt inside, inactive, ?_⟩
    intro listedHere
    cases List.mem_cons.mp listedHere with
    | inl first => omega
    | inr rest => exact outside rest
  · exact kept.trees

theorem Kept.charge (kept : manager.Kept limits)
    (below : manager.total < limits.maxTotalProcesses) : (manager.charge 0).Kept limits := by
  have same : manager.openPipes + (0 : ℕ) = manager.openPipes := by omega
  have pipes : manager.openPipes + (0 : ℕ)
      = manager.pipeSum (manager.active ++ manager.starting) := same.trans kept.pipes
  have bounded : manager.openPipes + (0 : ℕ) ≤ limits.maxOpenPipes :=
    same.le.trans kept.pipesBounded
  have charged : manager.processes.length + manager.synchronous
      + manager.descendants.dedup.length ≤ manager.total + 1 :=
    kept.charged.trans (Nat.le_succ _)
  exact { kept with
    pipes := pipes, pipesBounded := bounded, charged := charged, totalBounded := below }

theorem Kept.spawn (kept : manager.Kept limits) {request : SpawnRequest}
    (orderly : manager.begins limits request = true) :
    (manager.spawn limits request).Kept limits := by
  rw [ProcessResourceManager.spawn]
  rw [begins] at orderly
  cases reserved : manager.reserve limits request.stdio request.authorityProcessLimit with
  | error code => exact kept
  | ok pipeCount =>
    obtain ⟨below, pipes⟩ := reserve_ok reserved
    rw [reserved] at orderly
    simp only [Bool.and_eq_true, Bool.or_eq_true, decide_eq_true_eq] at orderly
    obtain ⟨enters, room⟩ := orderly
    simp only
    by_cases canonical : request.canonical = true
    · rw [if_pos canonical]
      have entered : ((manager.charge pipeCount).enter (.new limits request.executableId pipeCount
          request.maxBufferBytes)).Kept limits := kept.enter rfl rfl below pipes room
      exact entered
    · rw [if_neg canonical, enters.resolve_left canonical]
      exact kept.charge below

end Spawning

section Ending

variable {id : ℕ} {process : ProcessState} {calls : List SpawnCall}

variable {next : ProcessResourceManager} {event : SinkEvent}

theorem starting_cons {admitted : Bool} (innermost : manager.calls = ⟨id, admitted⟩ :: calls) :
    manager.starting = (if admitted = true then [] else [id]) ++
      (calls.filter fun call => !call.admitted).map SpawnCall.id := by
  rw [starting, innermost]
  cases admitted <;> rfl

section

variable (kept : manager.Kept limits)

include kept

/-- A spawn that fails inside its port keeps the books. -/
theorem Kept.refuse (innermost : manager.calls = ⟨id, false⟩ :: calls) :
    (manager.refuse id calls).Kept limits := by
  have started : manager.starting = id :: (manager.refuse id calls).starting :=
    starting_cons innermost
  have distinct := kept.distinct
  have idIn : id ∈ manager.starting := by
    rw [started]
    exact List.mem_cons_self
  have total : manager.pipeSum (manager.active ++ manager.starting)
      = manager.pipesOf id + manager.pipeSum
        (manager.active ++ (manager.refuse id calls).starting) := by
    rw [started]
    have perm : (manager.active ++ id :: (manager.refuse id calls).starting).Perm
        (id :: (manager.active ++ (manager.refuse id calls).starting)) := List.perm_middle
    exact (perm.map manager.pipesOf).sum_nat
  have pipes := kept.pipes
  have bounded := kept.pipesBounded
  have inside : id < manager.processes.length := kept.present id (List.mem_append_right _ idIn)
  have unadmitted : id ∉ manager.admitted :=
    fun isAdmitted => (List.nodup_append.mp distinct).2.2 id isAdmitted id idIn rfl
  have inactive : id ∉ manager.active := fun active => unadmitted (kept.admitted_of_active active)
  have rest : id ∉ (manager.refuse id calls).starting := by
    have nodup := distinct.of_append_right
    rw [started] at nodup
    exact (List.nodup_cons.mp nodup).1
  have subset : ∀ other ∈ (manager.refuse id calls).starting, other ∈ manager.starting := by
    intro other otherIn
    rw [started]
    exact List.mem_cons_of_mem _ otherIn
  constructor
  · change manager.openPipes - manager.pipesOf id
      = manager.pipeSum (manager.active ++ (manager.refuse id calls).starting)
    omega
  · change manager.openPipes - manager.pipesOf id ≤ _
    omega
  · have room := kept.concurrent
    rw [started, List.length_cons] at room
    change manager.active.length + (manager.refuse id calls).starting.length ≤ _
    omega
  · exact kept.charged
  · exact kept.totalBounded
  · exact kept.once
  · have shorter : (manager.admitted ++ (manager.refuse id calls).starting).Sublist
        (manager.admitted ++ manager.starting) := by
      rw [started]
      exact (List.Sublist.refl _).append (List.sublist_cons_self _ _)
    exact distinct.sublist shorter
  · intro other otherIn
    apply kept.present
    cases List.mem_append.mp otherIn with
    | inl isAdmitted => exact List.mem_append_left _ isAdmitted
    | inr isStarting => exact List.mem_append_right _ (subset other isStarting)
  · exact kept.readied
  · exact kept.closed
  · intro call callIn
    apply kept.replaying
    rw [innermost]
    exact List.mem_cons_of_mem _ callIn
  · intro other isFailed
    cases List.mem_append.mp isFailed with
    | inl earlier =>
      obtain ⟨isInside, isInactive, isOutside⟩ := kept.spotless other earlier
      exact ⟨isInside, isInactive, fun isStarting => isOutside (subset other isStarting)⟩
    | inr now_ =>
      rw [List.mem_singleton.mp now_]
      exact ⟨inside, inactive, rest⟩
  · exact kept.trees

/-- A spawn whose process is admitted keeps the books. -/
theorem Kept.admitProcess (innermost : manager.calls = ⟨id, false⟩ :: calls)
    (found : manager.processes[id]? = some process) :
    (manager.admitProcess id process calls).Kept limits := by
  have started : manager.starting = id :: (manager.admitProcess id process calls).starting :=
    starting_cons innermost
  have distinct := kept.distinct
  have idIn : id ∈ manager.starting := by
    rw [started]
    exact List.mem_cons_self
  have length : (manager.admitProcess id process calls).processes.length
      = manager.processes.length := List.length_set
  have samePipes : ∀ other, (manager.admitProcess id process calls).pipesOf other
      = manager.pipesOf other := by
    have put : ∀ other, (manager.put id { process with ready := true }).pipesOf other
        = manager.pipesOf other := pipesOf_put found rfl
    exact put
  have moved : (manager.active ++ [id] ++ (manager.admitProcess id process calls).starting).Perm
      (manager.active ++ manager.starting) := by
    rw [started, List.append_assoc]
    exact List.Perm.refl _
  have sum : (manager.admitProcess id process calls).pipeSum
      (manager.active ++ [id] ++ (manager.admitProcess id process calls).starting)
        = manager.pipeSum (manager.active ++ manager.starting) := by
    rw [pipeSum_congr fun other _ => samePipes other]
    exact (moved.map manager.pipesOf).sum_nat
  have readied : ∀ other content,
      (manager.admitProcess id process calls).processes[other]? = some content →
        (content.ready = true ↔ other ∈ manager.admitted ++ [id]) := by
    intro other content isContent
    cases found_put isContent with
    | inl here =>
      rw [here.1, here.2]
      exact iff_of_true rfl (List.mem_append_right _ (List.mem_singleton.mpr rfl))
    | inr elsewhere =>
      rw [kept.readied other content elsewhere.2, List.mem_append, List.mem_singleton]
      exact ⟨fun earlier => .inl earlier, fun either => either.resolve_right elsewhere.1⟩
  have closed : ∀ other content,
      (manager.admitProcess id process calls).processes[other]? = some content →
        (content.closed = true ↔ other ∈ manager.departed) := by
    intro other content isContent
    cases found_put isContent with
    | inl here =>
      rw [here.1, here.2]
      exact kept.closed id process found
    | inr elsewhere => exact kept.closed other content elsewhere.2
  have together :
    (manager.admitted ++ [id] ++ (manager.admitProcess id process calls).starting).Perm
      (manager.admitted ++ manager.starting) := by
    rw [started, List.append_assoc]
    exact List.Perm.refl _
  constructor
  · change manager.openPipes = ((manager.admitProcess id process calls).pipeSum
      (manager.active ++ [id] ++ (manager.admitProcess id process calls).starting) : ℤ)
    rw [sum]
    exact kept.pipes
  · exact kept.pipesBounded
  · have room := kept.concurrent
    rw [started, List.length_cons] at room
    change (manager.active ++ [id]).length
      + (manager.admitProcess id process calls).starting.length ≤ _
    rw [List.length_append, List.length_singleton]
    omega
  · rw [length]
    exact kept.charged
  · exact kept.totalBounded
  · change (manager.active ++ [id] ++ manager.departed).Perm (manager.admitted ++ [id])
    have swapped : (manager.active ++ [id] ++ manager.departed).Perm
        (manager.active ++ manager.departed ++ [id]) := by
      rw [List.append_assoc, List.append_assoc]
      exact List.perm_append_comm.append_left manager.active
    exact swapped.trans (kept.once.append_right [id])
  · exact together.nodup_iff.mpr distinct
  · rw [length]
    exact fun other otherIn => kept.present other (together.mem_iff.mp otherIn)
  · exact readied
  · exact closed
  · intro call callIn isAdmitted
    cases List.mem_cons.mp callIn with
    | inl first =>
      rw [first]
      exact List.mem_append_right _ (List.mem_singleton.mpr rfl)
    | inr rest =>
      have earlier : call ∈ manager.calls := by
        rw [innermost]
        exact List.mem_cons_of_mem _ rest
      exact List.mem_append_left _ (kept.replaying call earlier isAdmitted)
  · rw [length]
    intro other isFailed
    obtain ⟨inside, inactive, outside⟩ := kept.spotless other isFailed
    rw [started, List.mem_cons, not_or] at outside
    obtain ⟨different, rest⟩ := outside
    refine ⟨inside, ?_, rest⟩
    intro isActive
    cases List.mem_append.mp isActive with
    | inl earlier => exact inactive earlier
    | inr here => exact different (List.mem_singleton.mp here)
  · exact kept.trees

theorem Kept.endPort {outcome : PortOutcome}
    (ended : manager.endPort outcome = some next) : next.Kept limits := by
  rw [ProcessResourceManager.endPort] at ended
  split at ended
  · next id calls innermost =>
    split at ended
    · next process found =>
      split at ended
      · rw [← Option.some.inj ended]
        exact kept.admitProcess innermost found
      · rw [← Option.some.inj ended]
        exact kept.refuse innermost
    · cases ended
  · cases ended

theorem Kept.leaveCall
    (innermost : manager.calls = ⟨id, true⟩ :: calls) :
    { manager with calls := calls }.Kept limits := by
  have started : { manager with calls := calls }.starting = manager.starting :=
    (starting_cons innermost).symm
  have replaying : ∀ call ∈ calls, call.admitted = true → call.id ∈ manager.admitted := by
    intro call callIn
    apply kept.replaying
    rw [innermost]
    exact List.mem_cons_of_mem _ callIn
  constructor
  · rw [started]
    exact kept.pipes
  · exact kept.pipesBounded
  · rw [started]
    exact kept.concurrent
  · exact kept.charged
  · exact kept.totalBounded
  · exact kept.once
  · rw [started]
    exact kept.distinct
  · rw [started]
    exact kept.present
  · exact kept.readied
  · exact kept.closed
  · exact replaying
  · rw [started]
    exact kept.spotless
  · exact kept.trees

theorem Kept.abort
    (innermost : manager.calls = ⟨id, true⟩ :: calls) (left : id ∈ manager.departed) :
    (manager.abort id calls).Kept limits := by
  have ended := kept.leaveCall innermost
  have isAdmitted := kept.admitted_of_departed left
  have spotless : ∀ other ∈ manager.failed ++ [id], other < manager.processes.length ∧
      other ∉ manager.active ∧ other ∉ { manager with calls := calls }.starting := by
    intro other isFailed
    cases List.mem_append.mp isFailed with
    | inl earlier => exact ended.spotless other earlier
    | inr here =>
      rw [List.mem_singleton.mp here]
      refine ⟨kept.present id (List.mem_append_left _ isAdmitted), ?_, ?_⟩
      · exact fun active => (List.nodup_append.mp kept.nodup).2.2 id active id left rfl
      · exact fun starting => (List.nodup_append.mp ended.distinct).2.2 id isAdmitted id
          starting rfl
  exact { ended with spotless := spotless }

theorem Kept.complete {accepted : Bool} (orderly : (accepted || manager.hasLeft) = true)
    (completed : manager.complete accepted = some next) : next.Kept limits := by
  rw [ProcessResourceManager.complete] at completed
  split at completed
  · next id calls innermost =>
    split at completed
    · split at completed
      · split at completed
        · rw [← Option.some.inj completed]
          exact kept.leaveCall innermost
        · next refused =>
          rw [← Option.some.inj completed]
          apply kept.abort innermost
          have left : manager.hasLeft = true := by simpa [refused] using orderly
          rw [hasLeft, innermost] at left
          exact of_decide_eq_true left
      · cases completed
    · cases completed
  · cases completed

end

theorem throws_of_loses (lost : loses process event = true) :
    (process.handle event).throws = true := by
  rw [loses, Bool.and_eq_true, Bool.and_eq_true] at lost
  obtain ⟨⟨isOpen, isClose⟩, accepts⟩ := lost
  have same : event = .close false := of_decide_eq_true isClose
  have stays : ¬ process.closed = true := by simpa using isOpen
  rw [same, ProcessState.handle, if_neg stays, ProcessState.leave]
  simp [accepts]

theorem settle_put (handled : Handled) :
    (manager.put id process).settle id handled = manager.settle id handled := by
  have twice : (manager.put id process).put id handled.process =
      manager.put id handled.process := by
    rw [put, put, put, List.set_set]
  rw [settle, settle, twice]

/-- Replaying an event that does not throw keeps the books. -/
theorem Kept.replay (kept : manager.Kept limits) (orderly : manager.replays = true)
    (replayed : manager.replay = some next) : next.Kept limits := by
  rw [ProcessResourceManager.replay] at replayed
  split at replayed
  · next id calls innermost =>
    split at replayed
    · next process found =>
      split at replayed
      · cases replayed
      · next event queued isQueued =>
        rw [replays, innermost] at orderly
        simp only [found, isQueued, Bool.not_eq_true'] at orderly
        simp only [orderly] at replayed
        rw [if_neg Bool.false_ne_true] at replayed
        rw [← Option.some.inj replayed]
        have delivered : loses { process with queued := queued } event = false := by
          by_contra lost
          have throws := throws_of_loses (by simpa using lost)
          rw [throwsAt] at orderly
          simp [throws] at orderly
        have isAdmitted : id ∈ manager.admitted := by
          apply kept.replaying ⟨id, true⟩ _ rfl
          rw [innermost]
          exact List.mem_cons_self
        have ready := (kept.readied id process found).mpr isAdmitted
        have put : (manager.put id { process with queued := queued }).Kept limits :=
          kept.put found ⟨rfl, rfl, rfl⟩
        have foundNext : (manager.put id { process with queued := queued }).processes[id]?
            = some { process with queued := queued } := by
          obtain ⟨inside, -⟩ := List.getElem?_eq_some_iff.mp found
          exact List.getElem?_set_self inside
        have settled := put.settle foundNext ready delivered
        rwa [settle_put] at settled
    · cases replayed
  · cases replayed

theorem Kept.report (kept : manager.Kept limits) (orderly : manager.delivers id event = true) :
    (manager.report id event).Kept limits := by
  rw [ProcessResourceManager.report]
  rw [delivers] at orderly
  cases found : manager.processes[id]? with
  | none => exact kept
  | some process =>
    rw [found] at orderly
    simp only
    by_cases ready : process.ready = true
    · rw [if_pos ready]
      have delivered : loses process event = false := by simpa [ready] using orderly
      exact kept.settle found ready delivered
    · rw [if_neg ready]
      exact kept.put found (alike_stage process event)

theorem Kept.timeOut (kept : manager.Kept limits) (id : ℕ) : (manager.timeOut id).Kept limits := by
  rw [ProcessResourceManager.timeOut]
  cases found : manager.processes[id]? with
  | none => exact kept
  | some process =>
    have told : (manager.put id (process.tell .error)).Kept limits :=
      kept.put found ⟨rfl, rfl, rfl⟩
    exact told.closeState id

end Ending

section Descending

variable {tree : LinuxTree} {pid time : ℕ}

variable {source : LinuxSource} {input : DescendantRequest}

theorem startOf_set {identity : LinuxIdentity} {other : ℕ} :
    (tree.set pid identity).startOf other
      = if other = pid then identity.processStartTimeTicks else tree.startOf other := by
  change (Function.update tree.identities pid (some identity) other).bind
    LinuxIdentity.processStartTimeTicks = _
  by_cases here : other = pid
  · rw [if_pos here, here, Function.update_self]
    rfl
  · rw [if_neg here, Function.update_of_ne here]
    rfl

theorem startOf_running (executableId other : ℕ) :
    (tree.running pid executableId).startOf other = tree.startOf other := by
  rw [LinuxTree.running]
  split
  · next identity found =>
    split
    · rw [startOf_set]
      by_cases here : other = pid
      · rw [if_pos here, here, LinuxTree.startOf, found]
        rfl
      · rw [if_neg here]
    · rfl
  · rfl

theorem root_running (executableId : ℕ) : (tree.running pid executableId).root = tree.root := by
  rw [LinuxTree.running]
  split
  · split <;> rfl
  · rfl

theorem reserveProcessDescendant_ok {total executableId : ℕ} {known : Option LinuxTree}
    {result : Reservation}
    (reserved : reserveProcessDescendant limits total executableId source input known =
    .ok result) :
    result.tree.root = (known.getD (LinuxTree.new source executableId)).root ∧
      (∀ pid time, result.tree.startOf pid = some time →
        (known.getD (LinuxTree.new source executableId)).startOf pid = some time ∨
          pid = input.linuxPid ∧ time = input.processStartTimeTicks) ∧
      ((result.totalIncrement = 0 ∧ (input.linuxPid = source.rootLinuxPid ∨
          (known.getD (LinuxTree.new source executableId)).startOf input.linuxPid
            = some input.processStartTimeTicks)) ∨
        result.totalIncrement = 1 ∧ total < limits.maxTotalProcesses) := by
  rw [reserveProcessDescendant] at reserved
  simp only at reserved
  have added : ∀ (tree : LinuxTree) (depth executable : ℕ) (pid time : ℕ),
      ((tree.set input.linuxPid ⟨depth, executable, some input.processStartTimeTicks⟩).running
        input.linuxPid source.executableId).startOf pid = some time →
      tree.startOf pid = some time ∨ pid = input.linuxPid ∧ time = input.processStartTimeTicks := by
    intro tree depth executable pid time started
    rw [startOf_running, startOf_set] at started
    by_cases here : pid = input.linuxPid
    · rw [if_pos here] at started
      exact .inr ⟨here, (Option.some.inj started).symm⟩
    · rw [if_neg here] at started
      exact .inl started
  split at reserved
  · next known_ =>
    rw [← Except.ok.inj reserved]
    refine ⟨root_running _, ?_, .inl ⟨rfl, .inr known_⟩⟩
    intro pid time started
    rw [startOf_running] at started
    exact .inl started
  · split at reserved
    · next isRoot =>
      split at reserved
      · cases reserved
      · split at reserved
        · cases reserved
        · rw [← Except.ok.inj reserved]
          exact ⟨root_running _, added _ _ _, .inl ⟨rfl, .inl isRoot⟩⟩
    · split at reserved
      · cases reserved
      · split at reserved
        · cases reserved
        · next within =>
          rw [← Except.ok.inj reserved]
          refine ⟨root_running _, added _ _ _, .inr ⟨rfl, ?_⟩⟩
          omega

theorem treeOf_mem {id : ℕ} (found : manager.treeOf id = some tree) :
    (id, tree) ∈ manager.linuxTrees := by
  obtain ⟨entry, isEntry, same⟩ := Option.map_eq_some_iff.mp found
  have named : entry.1 = id := by simpa using List.find?_some isEntry
  have whole : entry = (id, tree) := Prod.ext named same
  rw [← whole]
  exact List.mem_of_find?_eq_some isEntry

theorem dedup_known {descendants : List Descendant} {descendant : Descendant}
    (known : descendant ∈ descendants) :
    (descendants ++ [descendant]).dedup.length = descendants.dedup.length := by
  rw [← List.card_toFinset, ← List.card_toFinset, List.toFinset_append]
  congr 1
  ext other
  simp only [Finset.mem_union, List.mem_toFinset, List.mem_singleton]
  exact ⟨fun either => either.elim id fun same => same ▸ known, .inl⟩

theorem dedup_new (descendants : List Descendant) (descendant : Descendant) :
    (descendants ++ [descendant]).dedup.length ≤ descendants.dedup.length + 1 := by
  rw [← List.card_toFinset, ← List.card_toFinset, List.toFinset_append]
  exact Finset.card_union_le _ _

theorem Kept.tree_noted (kept : manager.Kept limits) (orderly : manager.namesRoot source = true)
    (executableId : ℕ) :
    ((manager.treeOf source.processResourceId).getD (LinuxTree.new source executableId)).root
        = source.rootLinuxPid ∧
      ∀ pid time, pid ≠ source.rootLinuxPid →
        ((manager.treeOf source.processResourceId).getD
          (LinuxTree.new source executableId)).startOf pid = some time →
          (⟨source.processResourceId, pid, time⟩ : Descendant) ∈ manager.descendants := by
  rw [namesRoot] at orderly
  cases known : manager.treeOf source.processResourceId with
  | none =>
    refine ⟨rfl, ?_⟩
    intro pid time other started
    change ((if pid = source.rootLinuxPid then _ else none : Option LinuxIdentity)).bind _ = _
      at started
    rw [if_neg other] at started
    cases started
  | some tree =>
    rw [known] at orderly
    have isRoot : tree.root = source.rootLinuxPid := of_decide_eq_true orderly
    refine ⟨isRoot, ?_⟩
    intro pid time other started
    rw [← isRoot] at other
    exact kept.trees _ (treeOf_mem known) pid time other started

/-- A descendant that is admitted keeps the books. -/
theorem Kept.reserveDescendant (kept : manager.Kept limits) {next : ProcessResourceManager}
    (orderly : manager.namesRoot source = true)
    (reserved : manager.reserveDescendant limits source input = .ok next) : next.Kept limits := by
  rw [ProcessResourceManager.reserveDescendant] at reserved
  split at reserved
  · cases reserved
  · next process found =>
    split at reserved
    · split at reserved
      · cases reserved
      · next result granted =>
        obtain ⟨sameRoot, starts, charge⟩ := reserveProcessDescendant_ok granted
        obtain ⟨isRoot, noted⟩ := kept.tree_noted orderly process.executableId
        rw [← Except.ok.inj reserved]
        have more : ∀ descendant ∈ manager.descendants, descendant ∈
            (if input.linuxPid = source.rootLinuxPid then manager.descendants
              else manager.descendants ++ [descendantOf source input]) := by
          intro descendant listed
          split
          · exact listed
          · exact List.mem_append_left _ listed
        have trees : ∀ entry ∈ (source.processResourceId, result.tree) ::
            manager.linuxTrees.filter (fun tree => tree.1 ≠ source.processResourceId),
            ∀ pid time, pid ≠ entry.2.root → entry.2.startOf pid = some time →
              (⟨entry.1, pid, time⟩ : Descendant) ∈
                (if input.linuxPid = source.rootLinuxPid then manager.descendants
                  else manager.descendants ++ [descendantOf source input]) := by
          intro entry entryIn pid time other started
          cases List.mem_cons.mp entryIn with
          | inl first =>
            rw [first] at other started ⊢
            rw [sameRoot, isRoot] at other
            cases starts pid time started with
            | inl earlier => exact more _ (noted pid time other earlier)
            | inr here =>
              rw [here.1] at other
              rw [if_neg other, here.1, here.2]
              exact List.mem_append_right _ (List.mem_singleton.mpr rfl)
          | inr rest =>
            exact more _ (kept.trees entry (List.mem_of_mem_filter rest) pid time other started)
        have charged : manager.processes.length + manager.synchronous +
            (if input.linuxPid = source.rootLinuxPid then manager.descendants
              else manager.descendants ++ [descendantOf source input]).dedup.length
                ≤ manager.total + result.totalIncrement := by
          have before := kept.charged
          by_cases root : input.linuxPid = source.rootLinuxPid
          · rw [if_pos root]
            omega
          · rw [if_neg root]
            cases charge with
            | inl free =>
              have known : descendantOf source input ∈ manager.descendants :=
                noted _ _ root (free.2.resolve_left root)
              rw [dedup_known known]
              omega
            | inr paid =>
              have one := dedup_new manager.descendants (descendantOf source input)
              omega
        have bounded : manager.total + result.totalIncrement ≤ limits.maxTotalProcesses := by
          have before := kept.totalBounded
          omega
        exact { kept with trees := trees, charged := charged, totalBounded := bounded }
    · cases reserved

end Descending

section Runs

/-- Every orderly event keeps the books. -/
theorem Kept.step (kept : manager.Kept limits) {event : ProcessEvent}
    {next : ProcessResourceManager} (orderly : manager.isOrderly limits event = true)
    (stepped : manager.step limits event = some next) : next.Kept limits := by
  cases event with
  | reserveSync stdio limit =>
    rw [← Option.some.inj stepped]
    exact kept.reserveSync stdio limit
  | spawn request =>
    rw [← Option.some.inj stepped]
    exact kept.spawn orderly
  | ported outcome => exact kept.endPort stepped
  | replayed => exact kept.replay orderly stepped
  | completed accepted => exact kept.complete orderly stepped
  | reported id event =>
    rw [← Option.some.inj stepped]
    exact kept.report orderly
  | reserveDescendant source input =>
    rw [ProcessResourceManager.step] at stepped
    cases reserved : manager.reserveDescendant limits source input with
    | error code =>
      rw [reserved] at stepped
      rw [← Option.some.inj stepped]
      exact kept
    | ok result =>
      rw [reserved] at stepped
      rw [← Option.some.inj stepped]
      exact kept.reserveDescendant orderly reserved
  | timedOut id =>
    rw [ProcessResourceManager.step] at stepped
    split at stepped
    · rw [← Option.some.inj stepped]
      exact kept.timeOut id
    · cases stepped
  | signal id =>
    rw [← Option.some.inj stepped]
    exact kept.closeState id
  | close =>
    rw [← Option.some.inj stepped]
    exact { kept with }

theorem kept_new : new.Kept limits where
  pipes := rfl
  pipesBounded := Int.natCast_nonneg _
  concurrent := Nat.zero_le _
  charged := le_refl _
  totalBounded := Nat.zero_le _
  once := List.Perm.refl _
  distinct := List.nodup_nil
  present id listed := by cases listed
  readied id process found := by cases found
  closed id process found := by cases found
  replaying call listed := by cases listed
  spotless id listed := by cases listed
  trees entry listed := by cases listed

theorem Kept.admitted_le (kept : manager.Kept limits) :
    manager.admitted.length ≤ manager.processes.length := by
  have inside : ∀ id ∈ manager.admitted, id ∈ List.range manager.processes.length :=
    fun id isAdmitted => List.mem_range.mpr (kept.present id (List.mem_append_left _ isAdmitted))
  have fewer := (List.subperm_of_subset kept.distinct.of_append_left inside).length_le
  rwa [List.length_range] at fewer

theorem Kept.exact (kept : manager.Kept limits) : manager.Exact limits where
  pipes := kept.pipes
  pipesBounded := kept.pipesBounded
  concurrent := (Nat.le_add_right _ _).trans kept.concurrent
  charged := by
    have charged := kept.charged
    have fewer := kept.admitted_le
    omega
  totalBounded := kept.totalBounded
  once := ⟨kept.once, kept.distinct.of_append_left⟩
  closed := kept.closed
  spotless id isFailed := (kept.spotless id isFailed).2.1

/-- In every run of orderly events the quotas are exact. -/
theorem orderly_exact {events : List ProcessEvent} (reached : (machine limits).ReachesWhen
    (fun manager event => manager.isOrderly limits event = true) events manager) :
    manager.Exact limits := by
  have kept : manager.Kept limits := by
    apply reached.invariant
    · exact kept_new
    · intro before event next kept orderly stepped
      exact kept.step orderly stepped
  exact kept.exact

def smallLimits : ProcessLimits := ⟨2, 4, 6, 4, 100, 100⟩

def threePipes : SpawnRequest := ⟨0, [.pipe, .pipe, .pipe], none, 2, true⟩

def spawnsTwo : List ProcessEvent :=
  [.spawn threePipes, .reported 0 .spawn, .ported .returned, .replayed, .completed true,
    .reserveDescendant ⟨0, 10, 11, 5, 0⟩ ⟨11, 10, 5⟩,
      .reserveDescendant ⟨0, 10, 11, 5, 0⟩ ⟨11, 10, 5⟩,
    .spawn threePipes, .ported .threw, .reported 0 (.close true)]

/-- The process that left and the spawn that failed hold nothing, and three were charged. -/
theorem orderly_exact_spawnsTwo : ∃ manager, (machine smallLimits).ReachesWhen
    (fun manager event => manager.isOrderly smallLimits event = true) spawnsTwo manager ∧
      (manager.active, manager.departed, manager.failed, manager.openPipes, manager.total)
        = ([], [0], [1], 0, 3) ∧ manager.Exact smallLimits := by
  have run : (((machine smallLimits).guarded fun manager event =>
      manager.isOrderly smallLimits event = true).run spawnsTwo).map (fun manager =>
        (manager.active, manager.departed, manager.failed, manager.openPipes, manager.total))
          = some ([], [0], [1], 0, 3) := by
    decide +kernel
  obtain ⟨manager, reached, fields⟩ := Machine.exists_of_guarded_run run
  exact ⟨manager, reached, fields, orderly_exact reached⟩

def cancelled : List ProcessEvent := [.spawn threePipes, .ported .returned, .completed false]

/-- The spawn fails, and its process is active. -/
theorem not_exact : ¬ ∀ (events : List ProcessEvent) (manager : ProcessResourceManager),
    (machine smallLimits).Reaches events manager → manager.Exact smallLimits := by
  intro exactly_
  have run : ((machine smallLimits).run cancelled).map (fun manager =>
      (manager.failed, manager.active)) = some ([0], [0]) := by
    decide +kernel
  obtain ⟨manager, reached, fields⟩ := Machine.exists_of_run run
  obtain ⟨isFailed, isActive⟩ := Prod.mk.inj fields
  have spotless := (exactly_ cancelled manager reached).spotless 0
  rw [isFailed, isActive] at spotless
  exact spotless (List.mem_singleton.mpr rfl) (List.mem_singleton.mpr rfl)

end Runs

end ProcessResourceManager

end Holonomy.Process
