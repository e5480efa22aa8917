import Holonomy.EventLoop.Index

/-!
# Callbacks run at most once

Every move accounts for the tasks and timers: what is left was there before or is new, what was
called or cancelled was there, and what is called once or cancelled is gone. So no task, and no
timer without an interval, runs twice or after it was cancelled.
-/

namespace Holonomy.EventLoop

open Foundation

/-- The callback runs at most once: only those of timers with an interval may run again. -/
def Execution.OneShot (execution : Execution) : Prop := execution.kind ≠ .timer true
  deriving Decidable

namespace Queues

/-- What a move does with the tasks and timers. -/
structure Accounts (queues after : Queues) : Prop where
  indexed : after.Indexed
  nextId : queues.nextId ≤ after.nextId
  present : ∀ id ∈ after.present, id ∈ queues.present ∨ queues.nextId ≤ id
  executed : ∃ ran : Option Execution, after.executed = queues.executed ++ ran.toList ∧
    ∀ execution ∈ ran, execution.id ∈ queues.present ∧
      (execution.OneShot → execution.id ∉ after.present)
  cancelled : ∃ gone, after.cancelled = queues.cancelled ++ gone ∧
    ∀ id ∈ gone, id ∈ queues.present ∧ id ∉ after.present

structure Once (queues : Queues) : Prop where
  once : ((queues.executed.filter fun execution => execution.OneShot).map Execution.id).Nodup
  gone : ∀ execution ∈ queues.executed, execution.OneShot → execution.id ∉ queues.present
  known : ∀ execution ∈ queues.executed, execution.id < queues.nextId
  cancelled : ∀ id ∈ queues.cancelled, id ∉ queues.present
  given : ∀ id ∈ queues.cancelled, id < queues.nextId

variable {queues after : Queues}

section Accounts

variable {ids : List ℕ}

theorem Without.accounts (without : queues.Without after ids) :
    queues.Accounts after where
  indexed := without.indexed
  nextId := without.nextId.ge
  present id listed := .inl (without.present.subset listed)
  executed := ⟨none, by rw [without.executed]; exact (List.append_nil _).symm,
    fun execution ran => absurd ran (Option.not_mem_none _)⟩
  cancelled := ⟨[], by rw [without.cancelled]; exact (List.append_nil _).symm,
    fun id gone => absurd gone List.not_mem_nil⟩

theorem Without.cancels (without : queues.Without after ids)
    (members : ∀ id ∈ ids, id ∈ queues.present) : queues.Accounts (after.cancel ids) where
  indexed := without.indexed.of_same rfl rfl rfl rfl
  nextId := without.nextId.ge
  present id listed := .inl (without.present.subset listed)
  executed := without.accounts.executed
  cancelled := ⟨ids, by rw [← without.cancelled]; rfl,
    fun id out => ⟨members id out, without.gone id out⟩⟩

theorem Without.executes (without : queues.Without after ids)
    {execution : Execution} (member : execution.id ∈ queues.present)
    (out : execution.OneShot → execution.id ∈ ids) :
    queues.Accounts (after.execute execution) where
  indexed := without.indexed.of_same rfl rfl rfl rfl
  nextId := without.nextId.ge
  present id listed := .inl (without.present.subset listed)
  executed := by
    refine ⟨some execution, by rw [← without.executed]; rfl, ?_⟩
    intro other ran
    rw [Option.mem_some_iff] at ran
    rw [← ran]
    exact ⟨member, fun once => without.gone _ (out once)⟩
  cancelled := without.accounts.cancelled

theorem Indexed.accountsSame (indexed : queues.Indexed) (entries : after.entries = queues.entries)
    (index : after.tasksById = queues.tasksById)
    (timers : after.timers.map TimerRecord.id = queues.timers.map TimerRecord.id)
    (nextId : after.nextId = queues.nextId) (executed : after.executed = queues.executed)
    (cancelled : after.cancelled = queues.cancelled) : queues.Accounts after := by
  have present : after.present = queues.present := by rw [Queues.present, entries, timers]; rfl
  have without : queues.Without after [] :=
    ⟨indexed.of_same entries index timers nextId, by rw [present],
      fun id out => absurd out List.not_mem_nil, executed, cancelled, nextId⟩
  exact without.accounts

theorem Indexed.accountsNew (indexed : after.Indexed)
    (present : after.present.Perm (queues.nextId :: queues.present))
    (nextId : after.nextId = queues.nextId + 1) (executed : after.executed = queues.executed)
    (cancelled : after.cancelled = queues.cancelled) : queues.Accounts after where
  indexed := indexed
  nextId := by omega
  present id listed := by
    rcases List.mem_cons.mp (present.mem_iff.mp listed) with same | old
    · exact .inr same.ge
    · exact .inl old
  executed := ⟨none, by rw [executed]; exact (List.append_nil _).symm,
    fun execution ran => absurd ran (Option.not_mem_none _)⟩
  cancelled := ⟨[], by rw [cancelled]; exact (List.append_nil _).symm,
    fun id gone => absurd gone List.not_mem_nil⟩

theorem Indexed.pushTimer (indexed : queues.Indexed) (dueAt : ℚ) (intervalMs : Option ℕ)
    (ref : Bool) : queues.Accounts (queues.pushTimer dueAt intervalMs ref) := by
  have present : (queues.pushTimer dueAt intervalMs ref).present.Perm
      (queues.nextId :: queues.present) := by
    unfold Queues.present Queues.pushTimer
    rw [List.map_append, ← List.append_assoc]
    exact List.perm_append_singleton _ _
  have absent : queues.nextId ∉ queues.present := fun listed =>
    absurd (indexed.fresh _ listed) (lt_irrefl _)
  refine Indexed.accountsNew ⟨indexed.index, ?_, ?_⟩ present rfl rfl rfl
  · exact present.nodup_iff.mpr (List.nodup_cons.mpr ⟨absent, indexed.distinct⟩)
  · intro id listed
    show id < queues.nextId + 1
    rcases List.mem_cons.mp (present.mem_iff.mp listed) with same | old
    · omega
    · have small := indexed.fresh id old
      omega

theorem map_id_advance (id : ℕ) (now : ℚ) :
    (queues.advanceIntervalDeadline id now).timers.map TimerRecord.id =
      queues.timers.map TimerRecord.id := by
  unfold advanceIntervalDeadline
  rw [List.map_map]
  refine List.map_congr_left fun timer _ => ?_
  rw [Function.comp_apply]
  by_cases same : timer.id = id
  · rw [if_pos same]
    unfold advanced
    split
    · rfl
    · split
      · rfl
      · rfl
  · rw [if_neg same]

end Accounts

section Moves

section

variable (indexed : queues.Indexed)

include indexed

theorem Indexed.cancelTask {id : ℕ} {queue : TaskQueue}
    (found : queues.tasksById id = some queue) : queues.Accounts (queues.cancelTask id queue) := by
  have listed : (id, queue) ∈ queues.entries := (indexed.index id queue).mp found
  have member : ∀ other ∈ [id], other ∈ queues.present := by
    intro other out
    rw [List.mem_singleton.mp out]
    exact List.mem_append_left _ (List.mem_map.mpr ⟨_, listed, rfl⟩)
  cases queue with
  | immediate =>
    obtain ⟨task, taskIn, same⟩ := mem_entries_immediate.mp listed
    rw [← same] at member ⊢
    exact (indexed.dropImmediate taskIn).cancels member
  | nextTick =>
    obtain ⟨task, taskIn, same⟩ := mem_entries_nextTick.mp listed
    rw [← same] at member ⊢
    exact (indexed.dropNextTick taskIn).cancels member
  | ready =>
    obtain ⟨task, taskIn, same⟩ := mem_entries_ready.mp listed
    rw [← same] at member ⊢
    exact (indexed.dropReady taskIn).cancels member

theorem Indexed.clearTimer {timer : TimerRecord}
    (found : timer ∈ queues.timers) : queues.Accounts (queues.clearTimer timer.id) := by
  refine (indexed.dropTimer found).cancels fun id out => ?_
  rw [List.mem_singleton.mp out]
  exact List.mem_append_right _ (List.mem_map.mpr ⟨timer, found, rfl⟩)

theorem Indexed.cancelNativeRequest (requestId : Text) :
    queues.Accounts (queues.cancelNativeRequest requestId) := by
  have entered : ∀ id ∈ (queues.completions requestId).map ReadyTask.id,
      (id, TaskQueue.ready) ∈ queues.entries := by
    intro id out
    obtain ⟨task, taskIn, same⟩ := List.mem_map.mp out
    exact mem_entries_ready.mpr ⟨task, (List.mem_filter.mp taskIn).1, same⟩
  have members : ∀ id ∈ (queues.completions requestId).map ReadyTask.id,
      id ∈ queues.entries.map Prod.fst :=
    fun id out => List.mem_map.mpr ⟨_, entered id out, rfl⟩
  have distinct := indexed.distinctIds.2.2.1
  have left : queues.Without { queues with
      nativeRequests := queues.nativeRequests.eraseP fun request => request.requestId = requestId
      readyTasks := queues.readyTasks.filter fun task => !queues.completes requestId task
      tasksById := fun id => if id ∈ (queues.completions requestId).map ReadyTask.id then none
        else queues.tasksById id } ((queues.completions requestId).map ReadyTask.id) := by
    refine indexed.without members ?_ ?_ (fun _ => rfl) rfl rfl rfl rfl
    · exact (List.Sublist.refl _).append
        ((List.Sublist.refl _).append (List.filter_sublist.map _))
    · intro entry
      obtain ⟨other, queue⟩ := entry
      have apart : queue ≠ .ready → (other, queue) ∈ queues.entries →
          other ∉ (queues.completions requestId).map ReadyTask.id := by
        intro different listed out
        exact different (indexed.queue_eq listed (entered other out))
      cases queue with
      | immediate =>
        rw [mem_entries_immediate, mem_entries_immediate]
        refine ⟨fun listed => ⟨listed, ?_⟩, fun listed => listed.1⟩
        exact apart (by decide) (mem_entries_immediate.mpr listed)
      | nextTick =>
        rw [mem_entries_nextTick, mem_entries_nextTick]
        refine ⟨fun listed => ⟨listed, ?_⟩, fun listed => listed.1⟩
        exact apart (by decide) (mem_entries_nextTick.mpr listed)
      | ready =>
        rw [mem_entries_ready, mem_entries_ready]
        constructor
        · rintro ⟨task, listed, same⟩
          have left := List.mem_filter.mp listed
          refine ⟨⟨task, left.1, same⟩, fun out => ?_⟩
          obtain ⟨twin, twinIn, twinSame⟩ := List.mem_map.mp out
          have equal : twin = task := List.inj_on_of_nodup_map distinct
            (List.mem_filter.mp twinIn).1
            left.1 (twinSame.trans same.symm)
          have completes := (List.mem_filter.mp twinIn).2
          rw [equal] at completes
          simp [completes] at left
        · rintro ⟨⟨task, listed, same⟩, kept⟩
          refine ⟨task, List.mem_filter.mpr ⟨listed, ?_⟩, same⟩
          rw [Bool.not_eq_true', Bool.eq_false_iff]
          intro completes
          exact kept (List.mem_map.mpr ⟨task, List.mem_filter.mpr ⟨listed, completes⟩, same⟩)
  exact left.cancels fun id out => List.mem_append_left _ (members id out)

theorem Taken.without {now : ℚ} {selected : Selected} {rest : Queues}
    (taken : queues.Taken now selected rest) : ∃ ids, queues.Without rest ids ∧
      selected.execution.id ∈ queues.present ∧
      (selected.execution.OneShot → selected.execution.id ∈ ids) := by
  have single : ∀ id : ℕ, id ∈ [id] := fun id => List.mem_singleton.mpr rfl
  cases taken with
  | immediate task older newer cutoff batch found first =>
    have listed : task ∈ queues.immediates := by rw [found]; simp
    refine ⟨[task.id], (indexed.dropImmediate listed).cutoffs _ _, ?_, fun _ => single task.id⟩
    exact List.mem_append_left _
      (List.mem_map.mpr ⟨_, mem_entries_immediate.mpr ⟨task, listed, rfl⟩, rfl⟩)
  | ready task batch cutoff batches found first =>
    refine ⟨[task.id], (indexed.dropReady found).cutoffs _ _, ?_, fun _ => single task.id⟩
    exact List.mem_append_left _
      (List.mem_map.mpr ⟨_, mem_entries_ready.mpr ⟨task, found, rfl⟩, rfl⟩)
  | timer record cutoff batches found due =>
    have member : record.id ∈ queues.present :=
      List.mem_append_right _ (List.mem_map.mpr ⟨record, found, rfl⟩)
    unfold fire
    split
    · exact ⟨[record.id], (indexed.dropTimer found).cutoffs _ _, member, fun _ => single record.id⟩
    · rename_i repeats
      refine ⟨[], indexed.withoutNone.cutoffs _ _, member, fun once => ?_⟩
      have again : record.intervalMs.isSome = true := Option.isSome_iff_ne_none.mpr repeats
      exact absurd (congrArg ExecutionKind.timer again) once

end

theorem Taken.nextSequence {now : ℚ} {selected : Selected} {rest : Queues}
    (taken : queues.Taken now selected rest) : rest.nextSequence = queues.nextSequence := by
  cases taken with
  | timer record cutoff batches found due =>
    unfold fire
    split
    · rfl
    · rfl
  | _ => rfl

theorem Indexed.taken_nextTick (indexed : queues.Indexed) {task : Option NextTickTask}
    {rest : Queues} (taken : queues.takeNextTick = (task, rest)) :
    (task = none ∧ rest = queues) ∨
      ∃ first later, queues.nextTicks = first :: later ∧ task = some first ∧
        rest = queues.dropNextTick first.id := by
  rw [indexed.takeNextTick] at taken
  split at taken
  · cases taken
    exact .inl ⟨rfl, rfl⟩
  · rename_i first later ticks
    cases taken
    exact .inr ⟨first, later, ticks, rfl, rfl⟩

theorem Moves.accounts (indexed : queues.Indexed) (moves : queues.Moves after) :
    queues.Accounts after := by
  cases moves with
  | stays => exact indexed.withoutNone.accounts
  | pushImmediate ref =>
    have entries : (queues.pushImmediate ref).entries.Perm
        ((queues.nextId, .immediate) :: queues.entries) := by
      unfold Queues.entries Queues.pushImmediate
      rw [List.map_append, List.append_assoc]
      exact List.perm_middle
    exact (indexed.push .immediate entries rfl rfl rfl).accountsNew
      ((entries.map Prod.fst).append_right _) rfl rfl rfl
  | pushNextTick ref =>
    have entries : (queues.pushNextTick ref).entries.Perm
        ((queues.nextId, .nextTick) :: queues.entries) := by
      unfold Queues.entries Queues.pushNextTick
      rw [List.map_append, List.append_assoc, ← List.append_assoc]
      refine List.perm_middle.trans (List.Perm.cons _ ?_)
      rw [List.append_assoc]
      exact List.Perm.refl _
    exact (indexed.push .nextTick entries rfl rfl rfl).accountsNew
      ((entries.map Prod.fst).append_right _) rfl rfl rfl
  | pushReady natives kind ref readyAt nativeRequestId ioCallback =>
    have entries : ({ queues with nativeRequests := natives }.pushReady kind ref readyAt
        nativeRequestId ioCallback).entries.Perm ((queues.nextId, .ready) :: queues.entries) := by
      unfold Queues.entries Queues.pushReady
      rw [List.map_append, ← List.append_assoc, ← List.append_assoc, ← List.append_assoc]
      exact List.perm_append_singleton _ _
    exact (indexed.push .ready entries rfl rfl rfl).accountsNew
      ((entries.map Prod.fst).append_right _) rfl rfl rfl
  | pushTimer dueAt intervalMs ref => exact indexed.pushTimer dueAt intervalMs ref
  | natives natives => exact indexed.accountsSame rfl rfl rfl rfl rfl rfl
  | cancelTask id queue found => exact indexed.cancelTask found
  | clearTimer id found =>
    obtain ⟨timer, timerIn, same⟩ := found
    exact same ▸ indexed.clearTimer timerIn
  | cancelNativeRequest requestId => exact indexed.cancelNativeRequest requestId
  | setTimerRef id ref =>
    refine indexed.accountsSame rfl rfl ?_ rfl rfl rfl
    rw [Queues.setTimerRef, List.map_map]
    refine List.map_congr_left fun timer _ => ?_
    rw [Function.comp_apply]
    split
    · rfl
    · rfl
  | setImmediateRef id ref =>
    refine indexed.accountsSame ?_ rfl rfl rfl rfl rfl
    rw [Queues.entries, Queues.setImmediateRef, List.map_map]
    refine congrArg (· ++ _) (List.map_congr_left fun task _ => ?_)
    rw [Function.comp_apply]
    split
    · rfl
    · rfl
  | advances id now => exact indexed.accountsSame rfl rfl (map_id_advance id now) rfl rfl rfl
  | takesNextTick task rest taken =>
    rcases indexed.taken_nextTick taken with ⟨none, _⟩ | ⟨first, later, ticks, same, left⟩
    · cases none
    · cases same
      have listed : task ∈ queues.nextTicks := by rw [ticks]; exact List.mem_cons_self
      rw [left]
      refine (indexed.dropNextTick listed).executes ?_ fun _ => List.mem_singleton.mpr rfl
      exact List.mem_append_left _
        (List.mem_map.mpr ⟨_, mem_entries_nextTick.mpr ⟨task, listed, rfl⟩, rfl⟩)
  | dropsNextTick rest task taken =>
    rcases indexed.taken_nextTick taken with ⟨_, left⟩ | ⟨first, later, ticks, _, left⟩
    · rw [left]
      exact indexed.withoutNone.accounts
    · rw [left]
      have listed : first ∈ queues.nextTicks := by rw [ticks]; exact List.mem_cons_self
      exact (indexed.dropNextTick listed).accounts
  | takesTask now selected rest taken =>
    obtain ⟨ids, without, member, out⟩ := (taken_of_take taken).without indexed
    exact without.executes member out
  | dropsTask now rest selected taken =>
    cases selected with
    | none =>
      rw [rest_of_take_none taken]
      exact (indexed.withoutNone.cutoffs none none).accounts
    | some selected =>
      obtain ⟨ids, without, _⟩ := (taken_of_take taken).without indexed
      exact without.accounts

theorem Steps.accounts (indexed : queues.Indexed) (steps : queues.Steps after) :
    queues.Accounts after := by
  obtain ⟨between, advanced, moves⟩ := steps
  rcases advanced with same | ⟨id, now, same⟩
  · rw [same] at moves
    exact moves.accounts indexed
  · have timers : (queues.advanceIntervalDeadline id now).timers.map TimerRecord.id =
        queues.timers.map TimerRecord.id := map_id_advance id now
    have present : (queues.advanceIntervalDeadline id now).present = queues.present := by
      rw [Queues.present, timers]
      rfl
    have before : (queues.advanceIntervalDeadline id now).Indexed :=
      indexed.of_same rfl rfl timers rfl
    rw [same] at moves
    have account := moves.accounts before
    have executed := account.executed
    have cancelled := account.cancelled
    have left := account.present
    rw [present] at executed cancelled left
    exact ⟨account.indexed, account.nextId, left, executed, cancelled⟩

end Moves

section Once

/-- What accounts for the tasks and timers calls none of them twice. -/
theorem Once.accounted (held : queues.Once) (indexed : queues.Indexed)
    (accounts : queues.Accounts after) : after.Once := by
  obtain ⟨ran, executed, here⟩ := accounts.executed
  obtain ⟨gone, cancelled, out⟩ := accounts.cancelled
  have bound := accounts.nextId
  have stays : ∀ id, id ∉ queues.present → id < queues.nextId → id ∉ after.present := by
    intro id absent small listed
    rcases accounts.present id listed with before | new
    · exact absent before
    · omega
  refine ⟨?_, ?_, ?_, ?_, ?_⟩
  · rw [executed, List.filter_append, List.map_append, List.nodup_append]
    refine ⟨held.once, ?_, ?_⟩
    · cases ran with
      | none => exact List.nodup_nil
      | some execution =>
        exact (List.nodup_singleton execution.id).sublist (List.filter_sublist.map Execution.id)
    · intro old oldIn new newIn same
      obtain ⟨before, beforeIn, beforeId⟩ := List.mem_map.mp oldIn
      obtain ⟨execution, executionIn, executionId⟩ := List.mem_map.mp newIn
      have once := (List.mem_filter.mp beforeIn)
      have runs : execution ∈ ran := Option.mem_toList.mp (List.mem_filter.mp executionIn).1
      refine held.gone before once.1 (of_decide_eq_true once.2) ?_
      rw [beforeId, same, ← executionId]
      exact (here execution runs).1
  · intro execution listed once
    rw [executed] at listed
    rcases List.mem_append.mp listed with old | new
    · exact stays _ (held.gone execution old once) (held.known execution old)
    · exact (here execution (Option.mem_toList.mp new)).2 once
  · intro execution listed
    rw [executed] at listed
    rcases List.mem_append.mp listed with old | new
    · have small := held.known execution old
      omega
    · have small := indexed.fresh _ (here execution (Option.mem_toList.mp new)).1
      omega
  · intro id listed
    rw [cancelled] at listed
    rcases List.mem_append.mp listed with old | new
    · exact stays id (held.cancelled id old) (held.given id old)
    · exact (out id new).2
  · intro id listed
    rw [cancelled] at listed
    rcases List.mem_append.mp listed with old | new
    · have small := held.given id old
      omega
    · have small := indexed.fresh _ (out id new).1
      omega

theorem Once.cleared (held : queues.Once) : queues.clearPendingWork.Once where
  once := held.once
  gone _ _ _ := List.not_mem_nil
  known := held.known
  cancelled _ _ := List.not_mem_nil
  given := held.given

theorem indexed_clear : queues.clearPendingWork.Indexed where
  index id queue := by
    refine ⟨fun found => ?_, fun listed => absurd listed List.not_mem_nil⟩
    cases found
  distinct := List.nodup_nil
  fresh id listed := absurd listed List.not_mem_nil

end Once

end Queues

end Holonomy.EventLoop
