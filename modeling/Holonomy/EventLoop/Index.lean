import Holonomy.EventLoop.Loop

/-!
# The index

The index holds exactly the tasks of the three queues. Queueing a task enters it, and taking one out
removes it from the index and from its queue; what is out of the index does not come back, as ids
are given out once.
-/

namespace Holonomy.EventLoop

open Foundation

/-! ## What an event makes of the queues

An event makes one of a few moves on the queues, perhaps behind the advance of a timer, and may then
empty the loop for good.
-/

section

/-- The moves on the queues. -/
inductive Queues.Moves (queues : Queues) : Queues → Prop where
  | stays : Moves queues queues
  | pushImmediate (ref : Bool) : Moves queues (queues.pushImmediate ref)
  | pushNextTick (ref : Bool) : Moves queues (queues.pushNextTick ref)
  | pushReady (natives : List NativeRequestRecord) (kind : ReadyKind) (ref : Bool) (readyAt : ℚ)
    (nativeRequestId : Option Text) (ioCallback : Bool) :
    Moves queues ({ queues with nativeRequests := natives }.pushReady kind ref readyAt
      nativeRequestId ioCallback)
  | pushTimer (dueAt : ℚ) (intervalMs : Option ℕ) (ref : Bool) :
    Moves queues (queues.pushTimer dueAt intervalMs ref)
  | natives (natives : List NativeRequestRecord) :
    Moves queues { queues with nativeRequests := natives }
  | cancelTask (id : ℕ) (queue : TaskQueue) (found : queues.tasksById id = some queue) :
    Moves queues (queues.cancelTask id queue)
  | clearTimer (id : ℕ) (found : ∃ timer ∈ queues.timers, timer.id = id) :
    Moves queues (queues.clearTimer id)
  | cancelNativeRequest (requestId : Text) : Moves queues (queues.cancelNativeRequest requestId)
  | setTimerRef (id : ℕ) (ref : Bool) : Moves queues (queues.setTimerRef id ref)
  | setImmediateRef (id : ℕ) (ref : Bool) : Moves queues (queues.setImmediateRef id ref)
  | advances (id : ℕ) (now : ℚ) : Moves queues (queues.advanceIntervalDeadline id now)
  | takesNextTick (task : NextTickTask) (rest : Queues)
    (taken : queues.takeNextTick = (some task, rest)) : Moves queues (rest.execute task.execution)
  | dropsNextTick (rest : Queues) (task : Option NextTickTask)
    (taken : queues.takeNextTick = (task, rest)) : Moves queues rest
  | takesTask (now : ℚ) (selected : Selected) (rest : Queues)
    (taken : queues.takeReadyTask now = (some selected, rest)) :
    Moves queues (rest.execute selected.execution)
  | dropsTask (now : ℚ) (rest : Queues) (selected : Option Selected)
    (taken : queues.takeReadyTask now = (selected, rest)) : Moves queues rest

/-- A move, perhaps behind the advance of a timer. -/
def Queues.Steps (queues after : Queues) : Prop :=
  ∃ between, (between = queues ∨ ∃ id now, between = queues.advanceIntervalDeadline id now) ∧
    between.Moves after

variable {queues : Queues}

theorem Queues.Moves.alone {after : Queues} (moves : queues.Moves after) : queues.Steps after :=
  ⟨queues, .inl rfl, moves⟩

theorem Queues.steps_rfl : queues.Steps queues := Queues.Moves.stays.alone

def Settled (loop next : RuntimeEventLoop) : Prop :=
  ∃ moved, loop.queues.Steps moved ∧
    ((next.disposed = loop.disposed ∧ next.queues = moved) ∨
      (next.disposed = true ∧ next.queues = moved.clearPendingWork))

namespace RuntimeEventLoop

variable {loop middle : RuntimeEventLoop}

variable {next : RuntimeEventLoop} {event : Event} {options : ResolvedOptions} {timer : Option ℕ}
  {callbacks : ℕ}

theorem settled_of_steps (same : next.disposed = loop.disposed)
    (steps : loop.queues.Steps next.queues) : Settled loop next :=
  ⟨next.queues, steps, .inl ⟨same, rfl⟩⟩

section

variable (same : middle.disposed = loop.disposed)

include same

section

variable (steps : loop.queues.Steps middle.queues)

include steps

theorem settled_finalize
    : Settled loop middle.finalizeTermination := by
  unfold finalizeTermination
  split
  · exact settled_of_steps same steps
  · exact ⟨middle.queues, steps, .inr ⟨rfl, rfl⟩⟩

theorem settled_reconcile
    (now : ℚ) (throws : Bool) :
    Settled loop (middle.reconcileWakeupAt now throws) := by
  unfold reconcileWakeupAt
  split
  · rename_i asked found
    unfold requestWakeup at found
    split at found
    · cases found
      exact settled_of_steps same steps
    · split at found
      · cases found
      · cases found
        exact settled_of_steps same steps
  · exact settled_finalize same steps

theorem settled_withNow
    {reading : Option ℚ}
    {next : RuntimeEventLoop → ℚ → RuntimeEventLoop}
    (goes : ∀ now, Settled loop (next { middle with lastNow := some now } now)) :
    Settled loop (middle.withNow reading next) := by
  unfold withNow
  split
  · exact goes _
  · exact settled_finalize same steps

end

end

theorem settled_leave (settled : Settled loop next) : Settled loop next.leave := settled

theorem settled_reconcileIfActive (same : middle.disposed = loop.disposed)
    (steps : loop.queues.Steps middle.queues) :
    Settled loop (middle.reconcileWakeupIfActive event) := by
  unfold reconcileWakeupIfActive
  split
  · exact settled_of_steps same steps
  · refine settled_withNow same steps fun now => ?_
    exact settled_reconcile (by exact same) (by exact steps) now event.wakeupThrows

theorem settled_admitting {change : Queues → ℚ → Queues}
    (moves : ∀ now, loop.queues.Moves (change loop.queues now)) :
    Settled loop (loop.admitting event change) := by
  unfold admitting
  split
  · exact settled_of_steps (by rfl) (by exact Queues.steps_rfl)
  · refine settled_withNow (by rfl) (by exact Queues.steps_rfl) fun now => ?_
    exact settled_reconcile (by rfl) (by exact (moves now).alone) now event.wakeupThrows

theorem settled_execute {execution : Execution} {ticking : Bool}
    (same : middle.disposed = loop.disposed) (taken : loop.queues.Steps middle.queues)
    (called : loop.queues.Steps (middle.queues.execute execution)) :
    Settled loop (middle.executeCallback options execution timer ticking callbacks) := by
  unfold executeCallback
  split
  · exact settled_leave (settled_finalize same taken)
  · exact settled_of_steps same called

theorem settled_drain
    (same : middle.disposed = loop.disposed)
    (advanced : middle.queues = loop.queues ∨
      ∃ id now, middle.queues = loop.queues.advanceIntervalDeadline id now) :
    Settled loop (middle.drainNextTicks options timer callbacks) := by
  unfold drainNextTicks
  split
  · rename_i task queues taken
    exact settled_execute same ⟨_, advanced, .dropsNextTick queues (some task) taken⟩
      ⟨_, advanced, .takesNextTick task queues taken⟩
  · rename_i queues taken
    exact settled_of_steps same ⟨_, advanced, .dropsNextTick queues none taken⟩

theorem settled_runActiveTurn {onlyNextTicks : Bool} :
    Settled loop (loop.runActiveTurn options event onlyNextTicks) := by
  unfold runActiveTurn
  refine settled_withNow (by rfl) (by exact Queues.steps_rfl) fun now => ?_
  split
  · exact settled_of_steps (by rfl) (by exact Queues.steps_rfl)
  · simp only
    split
    · exact settled_drain (by rfl) (.inl (by rfl))
    · split
      · rename_i selected queues taken
        have steps : loop.queues.Steps queues := (Queues.Moves.dropsTask now queues _ taken).alone
        exact settled_execute (by rfl) (by exact steps)
          (by exact (Queues.Moves.takesTask now selected queues taken).alone)
      · rename_i queues taken
        have steps : loop.queues.Steps queues := (Queues.Moves.dropsTask now queues _ taken).alone
        refine settled_withNow (by rfl) (by exact steps) fun finishedAt => ?_
        exact settled_leave
          (settled_reconcile (by rfl) (by exact steps) finishedAt event.wakeupThrows)

theorem settled_afterSelected :
    Settled loop (loop.afterSelected options event timer callbacks) := by
  unfold afterSelected
  split
  · exact settled_drain (by rfl) (.inl (by rfl))
  · rename_i id
    refine settled_withNow (by rfl) (by exact Queues.steps_rfl) fun now => ?_
    exact settled_drain (by rfl) (.inr ⟨id, now, by rfl⟩)

theorem settled_afterCheckpoint : Settled loop (loop.afterCheckpoint event timer) := by
  unfold afterCheckpoint
  refine settled_withNow (by rfl) (by exact Queues.steps_rfl) fun finishedAt => ?_
  refine settled_leave (settled_reconcile ?_ ?_ finishedAt event.wakeupThrows)
  · cases timer with
    | none => rfl
    | some id => rfl
  · cases timer with
    | none => exact Queues.steps_rfl
    | some id => exact (Queues.Moves.advances id finishedAt).alone

theorem settled_setTimer {delayMs : Option ℚ} {intervalMs : Option (Option ℚ)} {ref : Bool} :
    Settled loop (loop.setTimer options event delayMs intervalMs ref) := by
  unfold setTimer
  split
  · exact settled_of_steps (by rfl) (by exact Queues.steps_rfl)
  · refine settled_withNow (by rfl) (by exact Queues.steps_rfl) fun now => ?_
    split
    · exact settled_of_steps (by rfl) (by exact Queues.steps_rfl)
    · exact settled_of_steps (by rfl) (by exact Queues.steps_rfl)
    · exact settled_reconcile (by rfl) (by exact (Queues.Moves.pushTimer _ _ _).alone) now
        event.wakeupThrows
    · exact settled_reconcile (by rfl) (by exact (Queues.Moves.pushTimer _ _ _).alone) now
        event.wakeupThrows

theorem settled_of_step (stepped : loop.step options event = some next) : Settled loop next := by
  have stays : Settled loop loop := settled_of_steps (by rfl) (by exact Queues.steps_rfl)
  have reads : Settled loop (if loop.disposed then loop
      else loop.withNow event.now fun loop _ => loop) := by
    split
    · exact stays
    · exact settled_withNow (by rfl) (by exact Queues.steps_rfl) fun _ =>
        settled_of_steps (by rfl) (by exact Queues.steps_rfl)
  have ends : Settled loop loop.finalizeTermination :=
    settled_finalize (by rfl) (by exact Queues.steps_rfl)
  unfold step at stepped
  cases named : event.action with
  | getCurrentTime =>
    simp only [named, Option.some.injEq] at stepped
    exact stepped ▸ reads
  | getSnapshot =>
    simp only [named, Option.some.injEq] at stepped
    exact stepped ▸ reads
  | enqueueMacrotask ref =>
    simp only [named, Option.some.injEq] at stepped
    exact stepped ▸ settled_admitting fun now => .pushReady _ .macrotask ref now none false
  | enqueueIoCallback ref =>
    simp only [named, Option.some.injEq] at stepped
    exact stepped ▸ settled_admitting fun now => .pushReady _ .macrotask ref now none true
  | enqueueImmediate ref =>
    simp only [named, Option.some.injEq] at stepped
    exact stepped ▸ settled_admitting fun _ => .pushImmediate ref
  | enqueueNextTick ref =>
    simp only [named, Option.some.injEq] at stepped
    exact stepped ▸ settled_admitting fun _ => .pushNextTick ref
  | cancelTask id =>
    simp only [named, Option.some.injEq] at stepped
    subst stepped
    unfold cancelTask
    split
    · exact stays
    · rename_i queue found
      exact settled_reconcileIfActive (by rfl)
        (by exact (Queues.Moves.cancelTask id queue found).alone)
  | setTimer delayMs intervalMs ref =>
    simp only [named, Option.some.injEq] at stepped
    exact stepped ▸ settled_setTimer
  | clearTimer id =>
    simp only [named, Option.some.injEq] at stepped
    subst stepped
    unfold clearTimer
    split
    · rename_i found
      have known : ∃ timer ∈ loop.queues.timers, timer.id = id := by simpa using found
      exact settled_reconcileIfActive (by rfl) (by exact (Queues.Moves.clearTimer id known).alone)
    · exact stays
  | setTimerRef id ref =>
    simp only [named, Option.some.injEq] at stepped
    subst stepped
    unfold setTimerRef
    split
    · exact settled_reconcileIfActive (by rfl) (by exact (Queues.Moves.setTimerRef id ref).alone)
    · exact stays
  | setImmediateRef id ref =>
    simp only [named, Option.some.injEq] at stepped
    subst stepped
    unfold setImmediateRef
    split
    · exact settled_reconcileIfActive (by rfl)
        (by exact (Queues.Moves.setImmediateRef id ref).alone)
    · exact stays
  | registerNativeRequest requestId ref =>
    simp only [named, Option.some.injEq] at stepped
    subst stepped
    unfold registerNativeRequest
    split
    · exact stays
    · exact settled_admitting fun _ => .natives _
  | completeNativeRequest requestId ref =>
    simp only [named, Option.some.injEq] at stepped
    subst stepped
    unfold completeNativeRequest
    split
    · exact stays
    · split
      · exact stays
      · exact settled_admitting fun now => .pushReady _ .nativeCompletion _ now _ false
  | cancelNativeRequest requestId =>
    simp only [named, Option.some.injEq] at stepped
    subst stepped
    unfold cancelNativeRequest
    split
    · exact settled_reconcileIfActive (by rfl)
        (by exact (Queues.Moves.cancelNativeRequest requestId).alone)
    · exact stays
  | setNativeRequestRef requestId ref =>
    simp only [named, Option.some.injEq] at stepped
    subst stepped
    unfold setNativeRequestRef
    split
    · exact settled_reconcileIfActive (by rfl) (by exact (Queues.Moves.natives _).alone)
    · exact stays
  | shutdown =>
    simp only [named, Option.some.injEq] at stepped
    exact stepped ▸ ends
  | callbackReturns =>
    simp only [named] at stepped
    split at stepped
    · cases stepped
      split
      · exact settled_leave stays
      · split
        · exact settled_drain (by rfl) (.inl (by rfl))
        · exact settled_afterSelected
    · cases stepped
  | callbackThrows =>
    simp only [named] at stepped
    split at stepped
    · cases stepped
      exact settled_leave ends
    · cases stepped
  | checkpointReturns =>
    simp only [named] at stepped
    split at stepped
    · cases stepped
      split
      · exact settled_leave stays
      · exact settled_afterCheckpoint
    · cases stepped
  | checkpointThrows =>
    simp only [named] at stepped
    split at stepped
    · cases stepped
      exact settled_leave ends
    · cases stepped
  | _ =>
    simp only [named, Option.some.injEq] at stepped
    subst stepped
    split
    · exact stays
    · exact settled_runActiveTurn

theorem idle_of_disposed (disposed : loop.disposed = true)
    (empty : loop.queues.clearPendingWork = loop.queues)
    (stepped : loop.step options event = some next) :
    next.disposed = true ∧ next.queues = loop.queues := by
  have index : loop.queues.tasksById = fun _ => none := (congrArg Queues.tasksById empty).symm
  have timers : loop.queues.timers = [] := (congrArg Queues.timers empty).symm
  have ready : loop.queues.readyTasks = [] := (congrArg Queues.readyTasks empty).symm
  have natives : loop.queues.nativeRequests = [] := (congrArg Queues.nativeRequests empty).symm
  have same : loop.disposed = true ∧ loop.queues = loop.queues := ⟨disposed, rfl⟩
  have ends : loop.finalizeTermination = loop := if_pos disposed
  have none : ∀ requestId, loop.nativeRequest requestId = none := by
    intro requestId
    rw [nativeRequest, natives]
    rfl
  have complete : ∀ requestId, loop.queues.completions requestId = [] := by
    intro requestId
    rw [Queues.completions, ready]
    rfl
  unfold step at stepped
  cases named : event.action with
  | callbackReturns =>
    simp only [named, disposed, if_true] at stepped
    split at stepped
    · cases stepped
      exact same
    · cases stepped
  | callbackThrows =>
    simp only [named, ends] at stepped
    split at stepped
    · cases stepped
      exact same
    · cases stepped
  | checkpointReturns =>
    simp only [named, disposed, if_true] at stepped
    split at stepped
    · cases stepped
      exact same
    · cases stepped
  | checkpointThrows =>
    simp only [named, ends] at stepped
    split at stepped
    · cases stepped
      exact same
    · cases stepped
  | _ =>
    simp only [named, disposed, ends, admitting, setTimer, cancelTask, index, clearTimer, timers,
      setTimerRef, setImmediateRef, registerNativeRequest, completeNativeRequest, none,
      cancelNativeRequest, complete, setNativeRequestRef, if_true, true_or, List.any_nil,
      Option.isSome_none, Option.any_none, Bool.false_eq_true, reduceCtorEq, false_and, or_self,
      ne_eq, not_true_eq_false, if_false, ite_self, ite_true, Option.some.injEq] at stepped
    rw [← stepped]
    exact same

end RuntimeEventLoop

end

/-! ## The index and the selection

The index holds the tasks of the three queues, each in one queue only.
-/

namespace Queues

variable (queues : Queues)

def entries : List (ℕ × TaskQueue) :=
  queues.immediates.map (fun task => (task.id, .immediate)) ++
    (queues.nextTicks.map (fun task => (task.id, .nextTick)) ++
      queues.readyTasks.map fun task => (task.id, .ready))

/-- The ids of the tasks and timers that may still run. -/
def present : List ℕ := queues.entries.map Prod.fst ++ queues.timers.map TimerRecord.id

structure Indexed : Prop where
  index : ∀ id queue, queues.tasksById id = some queue ↔ (id, queue) ∈ queues.entries
  distinct : queues.present.Nodup
  fresh : ∀ id ∈ queues.present, id < queues.nextId

/-- Change where the batches end. -/
def cutoffs (immediate io : Option ℕ) : Queues :=
  { queues with
    activeImmediateBatchCutoff := immediate
    activeIoBatchCutoff := io }

/-- What a turn may take, and the queues it leaves. -/
inductive Taken (now : ℚ) : Selected → Queues → Prop where
  | immediate (task : ImmediateTask) (older newer : List ImmediateTask) (immediate io : Option ℕ)
    (found : queues.immediates = older ++ task :: newer)
    (first : ∀ other ∈ older, task.sequence < other.sequence) :
    Taken now (.immediate task) ((queues.dropImmediate task.id).cutoffs immediate io)
  | ready (task : ReadyTask) (batch : Bool) (immediate io : Option ℕ)
    (found : task ∈ queues.readyTasks)
    (first : batch = false → ∃ limit, queues.firstReady limit = some task) :
    Taken now (.ready task batch) ((queues.dropReady task.id).cutoffs immediate io)
  | timer (timer : TimerRecord) (immediate io : Option ℕ) (found : timer ∈ queues.timers)
    (due : timer.dueAt ≤ now) :
    Taken now (.timer timer) ((queues.fire timer).cutoffs immediate io)

variable {queues}

section Selection

variable {now : ℚ}

variable {selected : Selected} {rest : Queues}

theorem Taken.of_cutoffs (immediate io : Option ℕ)
    (taken : (queues.cutoffs immediate io).Taken now selected rest) :
    queues.Taken now selected rest := by
  cases taken with
  | immediate task older newer cutoff batch found first =>
    exact .immediate task older newer cutoff batch found first
  | ready task batch cutoff batches found first =>
    exact .ready task batch cutoff batches found first
  | timer timer cutoff batches found due =>
    have same : ((queues.cutoffs immediate io).fire timer).cutoffs cutoff batches =
        (queues.fire timer).cutoffs cutoff batches := by
      unfold fire
      split
      · rfl
      · rfl
    rw [same]
    exact .timer timer cutoff batches found due

theorem taken_ordinary {limit : Option ℕ}
    (taken : queues.takeOrdinaryReadyTask now limit = some (selected, rest)) :
    queues.Taken now selected rest := by
  have ready : ∀ task, queues.firstReady limit = some task →
      queues.Taken now (.ready task false) (queues.takeReady task) := by
    intro task first
    have found := (mem_of_earliest first).1
    unfold takeReady
    split
    · exact .ready task false queues.activeImmediateBatchCutoff _ found fun _ => ⟨limit, first⟩
    · exact .ready task false queues.activeImmediateBatchCutoff queues.activeIoBatchCutoff found
        fun _ => ⟨limit, first⟩
  have timer : ∀ timer, queues.firstDue now limit = some timer →
      queues.Taken now (.timer timer) (queues.fire timer) := by
    intro timer first
    have found := mem_of_earliest first
    have due : timer.dueAt ≤ now := of_decide_eq_true (Bool.and_eq_true_iff.mp found.2).1
    have fires : queues.Taken now (.timer timer) ((queues.fire timer).cutoffs
        queues.activeImmediateBatchCutoff queues.activeIoBatchCutoff) :=
      .timer timer _ _ found.1 due
    have same : (queues.fire timer).cutoffs queues.activeImmediateBatchCutoff
        queues.activeIoBatchCutoff = queues.fire timer := by
      unfold fire
      split
      · rfl
      · rfl
    rwa [same] at fires
  unfold takeOrdinaryReadyTask at taken
  split at taken
  · rename_i task record first due
    split at taken
    · cases taken
      exact ready task first
    · cases taken
      exact timer record due
  · rename_i task first _
    cases taken
    exact ready task first
  · rename_i record _ due
    cases taken
    exact timer record due
  · cases taken

theorem taken_oldest {task : ImmediateTask} {newer : List ImmediateTask}
    (found : queues.immediates = task :: newer) (io : Option ℕ) :
    queues.Taken now (.immediate task) (({ queues with
      activeIoBatchCutoff := io }.beginImmediates).dropImmediate task.id) :=
  .immediate task [] newer _ io found fun _ listed => absurd listed List.not_mem_nil

theorem taken_unbatched (taken : queues.takeUnbatched now = some (selected, rest)) :
    queues.Taken now selected rest := by
  unfold takeUnbatched at taken
  split at taken
  · exact taken_ordinary taken
  · rename_i oldest newer found
    split at taken
    · rename_i earlier ordinary
      rw [Option.some.injEq] at taken
      rw [taken] at ordinary
      exact taken_ordinary ordinary
    · cases taken
      exact taken_oldest found queues.activeIoBatchCutoff

theorem taken_afterImmediates (taken : queues.takeAfterImmediates now = some (selected, rest)) :
    queues.Taken now selected rest := by
  unfold takeAfterImmediates at taken
  split at taken
  · exact taken_unbatched taken
  · rename_i cutoff _
    split at taken
    · rename_i task found
      cases taken
      exact .ready task true queues.activeImmediateBatchCutoff queues.activeIoBatchCutoff
        (List.mem_of_find?_eq_some found) fun no => absurd no.symm Bool.false_ne_true
    · simp only at taken
      split at taken
      · exact Taken.of_cutoffs queues.activeImmediateBatchCutoff none (taken_unbatched taken)
      · rename_i first newer found
        cases taken
        exact taken_oldest found none

theorem taken_of_take (taken : queues.takeReadyTask now = (some selected, rest)) :
    queues.Taken now selected rest := by
  have selects : queues.selectTask now = some (selected, rest) := by
    unfold takeReadyTask at taken
    split at taken
    · rename_i found
      cases taken
      exact found
    · cases taken
  unfold selectTask at selects
  split at selects
  · exact taken_afterImmediates selects
  · rename_i cutoff _
    split at selects
    · rename_i next found
      cases selects
      obtain ⟨fits, older, newer, same, late⟩ := List.find?_eq_some_iff_append.mp found
      have below : next.sequence ≤ cutoff := of_decide_eq_true fits
      refine .immediate next older newer queues.activeImmediateBatchCutoff
        queues.activeIoBatchCutoff same ?_
      intro other listed
      have above : ¬ other.sequence ≤ cutoff := by simpa using late other listed
      omega
    · exact Taken.of_cutoffs none queues.activeIoBatchCutoff (taken_afterImmediates selects)

theorem rest_of_take_none (taken : queues.takeReadyTask now = (none, rest)) :
    rest = queues.cutoffs none none := by
  unfold takeReadyTask at taken
  split at taken
  · cases taken
  · cases taken
    rfl

end Selection

variable {queues after : Queues}

section Lists

variable {α : Type} {key : α → ℕ} {values : List α}

section

variable (distinct : (values.map key).Nodup)

include distinct

theorem eraseP_eq_filter (id : ℕ) :
    values.eraseP (fun value => key value = id) = values.filter fun value => key value ≠ id := by
  induction values with
  | nil => rfl
  | cons value values ih =>
    rw [List.map_cons, List.nodup_cons] at distinct
    by_cases same : key value = id
    · rw [List.eraseP_cons_of_pos (by simpa using same),
        List.filter_cons_of_neg (by simpa using same)]
      symm
      rw [List.filter_eq_self]
      intro other listed
      have apart : key other ≠ id := by
        intro collides
        exact distinct.1 (List.mem_map.mpr ⟨other, listed, by rw [collides, same]⟩)
      simpa using apart
    · rw [List.eraseP_cons_of_neg (by simpa using same),
        List.filter_cons_of_pos (by simpa using same), ih distinct.2]

theorem mem_eraseP {id : ℕ} {value : α} :
    value ∈ values.eraseP (fun value => key value = id) ↔ value ∈ values ∧ key value ≠ id := by
  rw [eraseP_eq_filter distinct, List.mem_filter]
  simp

theorem exists_mem_eraseP {id other : ℕ} :
    (∃ value ∈ values.eraseP (fun value => key value = id), key value = other) ↔
      (∃ value ∈ values, key value = other) ∧ other ≠ id := by
  constructor
  · rintro ⟨left, listed, same⟩
    have stays := (mem_eraseP distinct).mp listed
    exact ⟨⟨left, stays.1, same⟩, same ▸ stays.2⟩
  · rintro ⟨⟨left, listed, same⟩, apart⟩
    exact ⟨left, (mem_eraseP distinct).mpr ⟨listed, same.symm ▸ apart⟩, same⟩

end

end Lists

section Index

section

variable (indexed : queues.Indexed)

include indexed

theorem Indexed.of_same (entries : after.entries = queues.entries)
    (index : after.tasksById = queues.tasksById)
    (timers : after.timers.map TimerRecord.id = queues.timers.map TimerRecord.id)
    (nextId : after.nextId = queues.nextId) : after.Indexed := by
  have present : after.present = queues.present := by rw [Queues.present, entries, timers]; rfl
  refine ⟨?_, ?_, ?_⟩
  · rw [index, entries]
    exact indexed.index
  · rw [present]
    exact indexed.distinct
  · rw [present, nextId]
    exact indexed.fresh

theorem Indexed.shrink (ids : List ℕ) (entries : after.entries.Sublist queues.entries)
    (kept : ∀ entry, entry ∈ after.entries ↔ entry ∈ queues.entries ∧ entry.1 ∉ ids)
    (index : ∀ id, after.tasksById id = if id ∈ ids then none else queues.tasksById id)
    (timers : after.timers.Sublist queues.timers) (nextId : after.nextId = queues.nextId) :
    after.Indexed := by
  have present : after.present.Sublist queues.present :=
    (entries.map Prod.fst).append (timers.map TimerRecord.id)
  refine ⟨?_, indexed.distinct.sublist present, ?_⟩
  · intro id queue
    rw [index, kept, ← indexed.index]
    by_cases out : id ∈ ids
    · rw [if_pos out]
      simp [out]
    · rw [if_neg out]
      simp [out]
  · rw [nextId]
    exact fun id listed => indexed.fresh id (present.subset listed)

theorem Indexed.push (queue : TaskQueue)
    (entries : after.entries.Perm ((queues.nextId, queue) :: queues.entries))
    (index : after.tasksById = Function.update queues.tasksById queues.nextId (some queue))
    (timers : after.timers = queues.timers) (nextId : after.nextId = queues.nextId + 1) :
    after.Indexed := by
  have present : after.present.Perm (queues.nextId :: queues.present) := by
    rw [Queues.present, timers]
    exact (entries.map Prod.fst).append_right (queues.timers.map TimerRecord.id)
  refine ⟨?_, ?_, ?_⟩
  · intro id other
    rw [index, entries.mem_iff, List.mem_cons, Prod.mk.injEq]
    by_cases same : id = queues.nextId
    · rw [same, Function.update_self]
      have absent : (queues.nextId, other) ∉ queues.entries := by
        intro listed
        have small := indexed.fresh queues.nextId
          (List.mem_append_left _ (List.mem_map.mpr ⟨_, listed, rfl⟩))
        omega
      simp [absent, eq_comm]
    · rw [Function.update_of_ne same, indexed.index]
      simp [same]
  · refine present.nodup_iff.mpr (List.nodup_cons.mpr ⟨?_, indexed.distinct⟩)
    intro listed
    have small := indexed.fresh _ listed
    omega
  · intro id listed
    rw [nextId]
    rcases List.mem_cons.mp (present.mem_iff.mp listed) with same | old
    · omega
    · have small := indexed.fresh id old
      omega

theorem Indexed.distinctIds :
    (queues.immediates.map ImmediateTask.id).Nodup ∧ (queues.nextTicks.map NextTickTask.id).Nodup ∧
      (queues.readyTasks.map ReadyTask.id).Nodup ∧ (queues.timers.map TimerRecord.id).Nodup := by
  have whole := indexed.distinct
  unfold present entries at whole
  simp only [List.map_append, List.map_map, Function.comp_def] at whole
  rw [List.nodup_append] at whole
  obtain ⟨tasks, timers, _⟩ := whole
  rw [List.nodup_append] at tasks
  obtain ⟨immediates, others, _⟩ := tasks
  rw [List.nodup_append] at others
  exact ⟨immediates, others.1, others.2.1, timers⟩

theorem Indexed.queue_eq {id : ℕ} {left right : TaskQueue}
    (first : (id, left) ∈ queues.entries) (second : (id, right) ∈ queues.entries) :
    left = right := by
  have found := (indexed.index id left).mpr first
  rw [(indexed.index id right).mpr second] at found
  exact (Option.some.inj found).symm

end

theorem mem_entries_immediate {id : ℕ} :
    (id, TaskQueue.immediate) ∈ queues.entries ↔ ∃ task ∈ queues.immediates, task.id = id := by
  simp [entries]

theorem mem_entries_nextTick {id : ℕ} :
    (id, TaskQueue.nextTick) ∈ queues.entries ↔ ∃ task ∈ queues.nextTicks, task.id = id := by
  simp [entries]

theorem mem_entries_ready {id : ℕ} :
    (id, TaskQueue.ready) ∈ queues.entries ↔ ∃ task ∈ queues.readyTasks, task.id = id := by
  simp [entries]

theorem Indexed.has_ready (indexed : queues.Indexed) {task : ReadyTask}
    (listed : task ∈ queues.readyTasks) : queues.has task.id = true := by
  have found := (indexed.index task.id .ready).mpr (mem_entries_ready.mpr ⟨task, listed, rfl⟩)
  rw [has, found]
  rfl

end Index

section Removal

/-- The queues with some tasks and timers taken out. -/
structure Without (queues after : Queues) (ids : List ℕ) : Prop where
  indexed : after.Indexed
  present : after.present.Sublist queues.present
  gone : ∀ id ∈ ids, id ∉ after.present
  executed : after.executed = queues.executed
  cancelled : after.cancelled = queues.cancelled
  nextId : after.nextId = queues.nextId

section

variable (indexed : queues.Indexed)

include indexed

theorem Indexed.without {ids : List ℕ} (members : ∀ id ∈ ids, id ∈ queues.entries.map Prod.fst)
    (entries : after.entries.Sublist queues.entries)
    (kept : ∀ entry, entry ∈ after.entries ↔ entry ∈ queues.entries ∧ entry.1 ∉ ids)
    (index : ∀ id, after.tasksById id = if id ∈ ids then none else queues.tasksById id)
    (timers : after.timers = queues.timers) (executed : after.executed = queues.executed)
    (cancelled : after.cancelled = queues.cancelled) (nextId : after.nextId = queues.nextId) :
    queues.Without after ids := by
  have shrunk := indexed.shrink ids entries kept index (timers ▸ List.Sublist.refl _) nextId
  refine ⟨shrunk, ?_, ?_, executed, cancelled, nextId⟩
  · rw [Queues.present, timers]
    exact (entries.map Prod.fst).append (List.Sublist.refl _)
  · intro id out listed
    rcases List.mem_append.mp listed with task | timer
    · obtain ⟨entry, entryIn, same⟩ := List.mem_map.mp task
      have stays := (kept entry).mp entryIn
      rw [same] at stays
      exact stays.2 out
    · rw [timers] at timer
      have apart := (List.nodup_append.mp indexed.distinct).2.2
      exact apart id (members id out) id timer rfl

theorem Indexed.withoutOne {id : ℕ} {queue : TaskQueue}
    (member : (id, queue) ∈ queues.entries) (entries : after.entries.Sublist queues.entries)
    (others : ∀ other queue', queue' ≠ queue →
      ((other, queue') ∈ after.entries ↔ (other, queue') ∈ queues.entries))
    (gone : ∀ other, (other, queue) ∈ after.entries ↔ (other, queue) ∈ queues.entries ∧ other ≠ id)
    (index : after.tasksById = Function.update queues.tasksById id none)
    (timers : after.timers = queues.timers) (executed : after.executed = queues.executed)
    (cancelled : after.cancelled = queues.cancelled) (nextId : after.nextId = queues.nextId) :
    queues.Without after [id] := by
  refine indexed.without ?_ entries ?_ ?_ timers executed cancelled nextId
  · intro other out
    rw [List.mem_singleton.mp out]
    exact List.mem_map.mpr ⟨_, member, rfl⟩
  · intro entry
    obtain ⟨other, queue'⟩ := entry
    rw [List.mem_singleton]
    by_cases same : queue' = queue
    · rw [same]
      exact gone other
    · rw [others other queue' same]
      refine ⟨fun listed => ⟨listed, ?_⟩, fun listed => listed.1⟩
      intro collides
      rw [show other = id from collides] at listed
      exact same (indexed.queue_eq listed member)
  · intro other
    by_cases same : other = id
    · rw [index, same, Function.update_self, if_pos (List.mem_singleton.mpr rfl)]
    · rw [index, Function.update_of_ne same,
        if_neg fun listed => same (List.mem_singleton.mp listed)]

theorem Indexed.dropImmediate {task : ImmediateTask}
    (found : task ∈ queues.immediates) :
    queues.Without (queues.dropImmediate task.id) [task.id] := by
  have member : (task.id, TaskQueue.immediate) ∈ queues.entries :=
    mem_entries_immediate.mpr ⟨task, found, rfl⟩
  have distinct := indexed.distinctIds.1
  refine indexed.withoutOne member ?_ ?_ ?_ rfl rfl rfl rfl rfl
  · exact (List.eraseP_sublist.map _).append (List.Sublist.refl _)
  · intro other queue apart
    cases queue with
    | immediate => exact absurd rfl apart
    | nextTick => rw [mem_entries_nextTick, mem_entries_nextTick]; rfl
    | ready => rw [mem_entries_ready, mem_entries_ready]; rfl
  · intro other
    rw [mem_entries_immediate, mem_entries_immediate]
    exact exists_mem_eraseP distinct

theorem Indexed.dropReady {task : ReadyTask}
    (found : task ∈ queues.readyTasks) : queues.Without (queues.dropReady task.id) [task.id] := by
  have member : (task.id, TaskQueue.ready) ∈ queues.entries :=
    mem_entries_ready.mpr ⟨task, found, rfl⟩
  have distinct := indexed.distinctIds.2.2.1
  refine indexed.withoutOne member ?_ ?_ ?_ rfl rfl rfl rfl rfl
  · exact (List.Sublist.refl _).append ((List.Sublist.refl _).append (List.eraseP_sublist.map _))
  · intro other queue apart
    cases queue with
    | immediate => rw [mem_entries_immediate, mem_entries_immediate]; rfl
    | nextTick => rw [mem_entries_nextTick, mem_entries_nextTick]; rfl
    | ready => exact absurd rfl apart
  · intro other
    rw [mem_entries_ready, mem_entries_ready]
    exact exists_mem_eraseP distinct

theorem Indexed.dropNextTick {task : NextTickTask}
    (found : task ∈ queues.nextTicks) : queues.Without (queues.dropNextTick task.id) [task.id] := by
  have member : (task.id, TaskQueue.nextTick) ∈ queues.entries :=
    mem_entries_nextTick.mpr ⟨task, found, rfl⟩
  have distinct := indexed.distinctIds.2.1
  refine indexed.withoutOne member ?_ ?_ ?_ rfl rfl rfl rfl rfl
  · exact (List.Sublist.refl _).append ((List.eraseP_sublist.map _).append (List.Sublist.refl _))
  · intro other queue apart
    cases queue with
    | immediate => rw [mem_entries_immediate, mem_entries_immediate]; rfl
    | nextTick => exact absurd rfl apart
    | ready => rw [mem_entries_ready, mem_entries_ready]; rfl
  · intro other
    rw [mem_entries_nextTick, mem_entries_nextTick]
    exact exists_mem_eraseP distinct

theorem Indexed.dropTimer {timer : TimerRecord}
    (found : timer ∈ queues.timers) : queues.Without (queues.dropTimer timer.id) [timer.id] := by
  have fewer : (queues.dropTimer timer.id).timers.Sublist queues.timers := List.eraseP_sublist
  have kept : ∀ entry, entry ∈ (queues.dropTimer timer.id).entries ↔
      entry ∈ queues.entries ∧ entry.1 ∉ ([] : List ℕ) :=
    fun _ => ⟨fun listed => ⟨listed, List.not_mem_nil⟩, fun listed => listed.1⟩
  have shrunk : (queues.dropTimer timer.id).Indexed :=
    indexed.shrink [] (by exact List.Sublist.refl _) kept (fun _ => rfl) fewer rfl
  refine ⟨shrunk, (List.Sublist.refl _).append (fewer.map TimerRecord.id), ?_, rfl, rfl, rfl⟩
  intro id out listed
  rw [List.mem_singleton.mp out] at listed
  rcases List.mem_append.mp listed with task | left
  · have apart := (List.nodup_append.mp indexed.distinct).2.2
    exact apart _ task _ (List.mem_map.mpr ⟨timer, found, rfl⟩) rfl
  · obtain ⟨other, otherIn, same⟩ := List.mem_map.mp left
    exact ((mem_eraseP indexed.distinctIds.2.2.2).mp otherIn).2 same

end

theorem Without.cutoffs {ids : List ℕ} (without : queues.Without after ids)
    (immediate io : Option ℕ) : queues.Without (after.cutoffs immediate io) ids :=
  ⟨without.indexed.of_same rfl rfl rfl rfl, without.present, without.gone, without.executed,
    without.cancelled, without.nextId⟩

theorem Indexed.withoutNone (indexed : queues.Indexed) : queues.Without queues [] :=
  ⟨indexed, List.Sublist.refl _, fun _ out => absurd out List.not_mem_nil, rfl, rfl, rfl⟩

theorem Indexed.takeNextTick (indexed : queues.Indexed) :
    queues.takeNextTick = match queues.nextTicks with
      | [] => (none, queues)
      | task :: _ => (some task, queues.dropNextTick task.id) := by
  have holds : ∀ task ∈ queues.nextTicks, queues.has task.id = true := by
    intro task listed
    have found := (indexed.index task.id .nextTick).mpr
      (mem_entries_nextTick.mpr ⟨task, listed, rfl⟩)
    rw [has, found]
    rfl
  unfold Queues.takeNextTick
  cases ticks : queues.nextTicks with
  | nil =>
    simp only [List.dropWhile_nil]
    rw [← ticks]
  | cons task rest =>
    have runs : queues.has task.id = true := holds task (by rw [ticks]; exact List.mem_cons_self)
    have whole : (task :: rest).dropWhile (fun task => !queues.has task.id) = task :: rest :=
      List.dropWhile_cons_of_neg (by rw [runs]; decide)
    have left : (task :: rest).eraseP (fun other => other.id = task.id) = rest :=
      List.eraseP_cons_of_pos (decide_eq_true rfl)
    simp only [whole]
    rw [Queues.dropNextTick, ticks, left]

end Removal

end Queues

end Holonomy.EventLoop
