import Holonomy.EventLoop.AtMostOnce

/-!
# The order of admission

Next ticks run in the order in which they were queued, and so do immediates; ready tasks that became
ready at the same time do so as long as no batch of I/O callbacks takes some of them earlier. For
each of these classes the callbacks that ran and those that wait form one increasing line.
-/

namespace Holonomy.EventLoop

open Foundation

def ExecutionKind.InOrder : ExecutionKind → Prop
  | .nextTick => True
  | .immediate => True
  | .ready _ batch => batch = false
  | .timer _ => False

structure Line (numbers : List ℕ) (counter : ℕ) : Prop where
  increasing : numbers.Pairwise (· < ·)
  bounded : ∀ number ∈ numbers, number < counter

section Line

variable {numbers fewer : List ℕ} {counter later : ℕ}

theorem Line.shrink (line : Line numbers counter) (sublist : fewer.Sublist numbers)
    (counted : counter ≤ later) : Line fewer later where
  increasing := line.increasing.sublist sublist
  bounded number listed := (line.bounded number (sublist.subset listed)).trans_le counted

theorem Line.push (line : Line numbers counter) : Line (numbers ++ [counter]) (counter + 1) where
  increasing := by
    exact pairwise_concat line.increasing line.bounded
  bounded := by
    refine forall_mem_concat (fun number old => ?_) (Nat.lt_succ_self counter)
    have small := line.bounded number old
    omega

end Line

namespace Queues

section Lines

variable (queues : Queues)

def ran (kind : ExecutionKind) : List ℕ :=
  (queues.executed.filter fun execution => execution.kind = kind).map Execution.order

def waiting : ExecutionKind → List ℕ
  | .nextTick => queues.nextTicks.map NextTickTask.id
  | .immediate => queues.immediates.map ImmediateTask.sequence
  | .ready readyAt _ =>
    (queues.readyTasks.filter fun task => task.readyAt = readyAt).map ReadyTask.sequence
  | .timer _ => []

/-- What gives callbacks of some kind their place. -/
def counter : ExecutionKind → ℕ
  | .nextTick => queues.nextId
  | _ => queues.nextSequence

def Ordered : Prop :=
  ∀ kind : ExecutionKind, kind.InOrder →
    Line (queues.ran kind ++ queues.waiting kind) (queues.counter kind)

end Lines

variable {queues after : Queues}

theorem Ordered.shrink (ordered : queues.Ordered) (executed : after.executed = queues.executed)
    (nextTicks : after.nextTicks.Sublist queues.nextTicks)
    (immediates : (after.immediates.map ImmediateTask.sequence).Sublist
      (queues.immediates.map ImmediateTask.sequence))
    (readyTasks : after.readyTasks.Sublist queues.readyTasks)
    (nextId : queues.nextId ≤ after.nextId)
    (nextSequence : queues.nextSequence ≤ after.nextSequence) :
    after.Ordered := by
  intro kind inOrder
  have same : after.ran kind = queues.ran kind := by rw [ran, executed]; rfl
  have fewer : (after.waiting kind).Sublist (queues.waiting kind) := by
    cases kind with
    | nextTick => exact nextTicks.map NextTickTask.id
    | immediate => exact immediates
    | ready readyAt batch => exact (readyTasks.filter _).map ReadyTask.sequence
    | timer interval => exact List.Sublist.refl []
  have counted : queues.counter kind ≤ after.counter kind := by
    cases kind with
    | nextTick => exact nextId
    | _ => exact nextSequence
  rw [same]
  exact (ordered kind inOrder).shrink ((List.Sublist.refl _).append fewer) counted

/-- A callback that runs leaves its class in order if it was first in line. -/
theorem Ordered.execute {execution : Execution} (ordered : queues.Ordered)
    (rest : after.Ordered) (executed : after.executed = queues.executed)
    (nextId : after.nextId = queues.nextId)
    (nextSequence : after.nextSequence = queues.nextSequence)
    (first : execution.kind.InOrder → (execution.order :: after.waiting execution.kind).Sublist
      (queues.waiting execution.kind)) : (after.execute execution).Ordered := by
  intro kind inOrder
  by_cases same : execution.kind = kind
  · rw [same] at first
    have before : after.ran kind = queues.ran kind := by rw [ran, executed]; rfl
    have alone : [execution].filter (fun execution => execution.kind = kind) = [execution] :=
      List.filter_cons_of_pos (by simpa using same)
    have now : (after.execute execution).ran kind = queues.ran kind ++ [execution.order] := by
      rw [← before, ran, Queues.execute, List.filter_append, List.map_append, alone]
      rfl
    have waits : (after.execute execution).waiting kind = after.waiting kind := by
      cases kind with
      | _ => rfl
    have counts : (after.execute execution).counter kind = queues.counter kind := by
      cases kind with
      | nextTick => exact nextId
      | _ => exact nextSequence
    rw [now, waits, counts, List.append_assoc]
    exact (ordered kind inOrder).shrink ((List.Sublist.refl _).append (first inOrder)) le_rfl
  · have line := rest kind inOrder
    have none : [execution].filter (fun execution => execution.kind = kind) = [] :=
      List.filter_cons_of_neg (by simpa using same)
    have now : (after.execute execution).ran kind = after.ran kind := by
      rw [ran, Queues.execute, List.filter_append, none, List.append_nil]
      rfl
    rw [now]
    cases kind with
    | _ => exact line

theorem Ordered.push (ordered : queues.Ordered) (executed : after.executed = queues.executed)
    (joins : ∀ kind : ExecutionKind, kind.InOrder →
      (after.waiting kind = queues.waiting kind ∧ queues.counter kind ≤ after.counter kind) ∨
      (after.waiting kind = queues.waiting kind ++ [queues.counter kind] ∧
        after.counter kind = queues.counter kind + 1)) : after.Ordered := by
  intro kind inOrder
  have same : after.ran kind = queues.ran kind := by rw [ran, executed]; rfl
  rw [same]
  rcases joins kind inOrder with ⟨waits, counted⟩ | ⟨waits, counted⟩
  · rw [waits]
    exact (ordered kind inOrder).shrink (List.Sublist.refl _) counted
  · rw [waits, counted, ← List.append_assoc]
    exact (ordered kind inOrder).push

theorem cons_eraseP_sublist {α : Type} {key number : α → ℕ} {values : List α} {value : α}
    (increasing : (values.map number).Pairwise (· < ·)) (listed : value ∈ values)
    (least : ∀ other ∈ values, number value ≤ number other) :
    (number value :: (values.eraseP fun other => key other = key value).map number).Sublist
      (values.map number) := by
  cases values with
  | nil => cases listed
  | cons head tail =>
    rw [List.map_cons, List.pairwise_cons] at increasing
    have same : head = value := by
      rcases List.mem_cons.mp listed with same | behind
      · exact same.symm
      · have above := increasing.1 (number value) (List.mem_map.mpr ⟨value, behind, rfl⟩)
        have below := least head List.mem_cons_self
        omega
    have left : (value :: tail).eraseP (fun other => key other = key value) = tail :=
      List.eraseP_cons_of_pos (decide_eq_true rfl)
    rw [same, left]
    exact List.Sublist.refl _

theorem Taken.first {now : ℚ} {selected : Selected} {rest : Queues} (indexed : queues.Indexed)
    (ordered : queues.Ordered) (taken : queues.Taken now selected rest) :
    rest.Ordered ∧ (selected.execution.kind.InOrder →
      (selected.execution.order :: rest.waiting selected.execution.kind).Sublist
        (queues.waiting selected.execution.kind)) := by
  cases taken with
  | immediate task older newer cutoff batch found first =>
    have line := ordered .immediate trivial
    have increasing : (queues.immediates.map ImmediateTask.sequence).Pairwise (· < ·) :=
      (List.pairwise_append.mp line.increasing).2.1
    have listed : task ∈ queues.immediates := by rw [found]; simp
    refine ⟨ordered.shrink rfl (List.Sublist.refl _) (List.eraseP_sublist.map _)
      (List.Sublist.refl _) le_rfl le_rfl, fun _ => ?_⟩
    refine cons_eraseP_sublist increasing listed fun other otherIn => ?_
    rw [found] at otherIn increasing
    rcases List.mem_append.mp otherIn with before | behind
    · exact (first other before).le
    · rcases List.mem_cons.mp behind with same | newerIn
      · rw [same]
      · rw [List.map_append, List.map_cons] at increasing
        have tail := (List.pairwise_append.mp increasing).2.1
        have above := (List.pairwise_cons.mp tail).1 other.sequence
          (List.mem_map.mpr ⟨other, newerIn, rfl⟩)
        omega
  | ready task batch cutoff batches found first =>
    refine ⟨ordered.shrink rfl (List.Sublist.refl _) (List.Sublist.refl _) List.eraseP_sublist
      le_rfl le_rfl, fun unbatched => ?_⟩
    obtain ⟨limit, earliest⟩ := first unbatched
    have line := ordered (.ready task.readyAt batch) unbatched
    have increasing := (List.pairwise_append.mp line.increasing).2.1
    have distinct := indexed.distinctIds.2.2.1
    have alike : task ∈ queues.readyTasks.filter fun other => other.readyAt = task.readyAt :=
      List.mem_filter.mpr ⟨found, decide_eq_true rfl⟩
    have left : (queues.readyTasks.eraseP fun other => other.id = task.id).filter
          (fun other => other.readyAt = task.readyAt) =
        (queues.readyTasks.filter fun other => other.readyAt = task.readyAt).eraseP
          fun other => other.id = task.id := by
      rw [eraseP_eq_filter distinct,
        eraseP_eq_filter (distinct.sublist (List.filter_sublist.map ReadyTask.id)),
        List.filter_filter, List.filter_filter]
      exact List.filter_congr fun other _ => Bool.and_comm _ _
    show (task.sequence :: ((queues.readyTasks.eraseP fun other => other.id = task.id).filter
      (fun other => other.readyAt = task.readyAt)).map ReadyTask.sequence).Sublist _
    rw [left]
    refine cons_eraseP_sublist increasing alike fun other otherIn => ?_
    have otherListed := List.mem_filter.mp otherIn
    have together : other.readyAt = task.readyAt := of_decide_eq_true otherListed.2
    have fits := Bool.and_eq_true_iff.mp (mem_of_earliest earliest).2
    have holds : queues.has other.id = true := indexed.has_ready otherListed.1
    by_cases early : below limit other.sequence = true
    · have key := earliest_le earliest otherListed.1 (Bool.and_eq_true_iff.mpr ⟨holds, early⟩)
      rw [readyKey, readyKey, together, Prod.Lex.toLex_le_toLex] at key
      rcases key with sooner | ⟨_, le⟩
      · exact absurd sooner (lt_irrefl _)
      · exact le
    · cases limit with
      | none => exact absurd rfl early
      | some bound =>
        have small : task.sequence < bound := of_decide_eq_true fits.2
        have large : ¬ other.sequence < bound := fun smaller => early (decide_eq_true smaller)
        omega
  | timer record cutoff batches found due =>
    refine ⟨?_, fun never => absurd never id⟩
    unfold fire
    split
    · exact ordered.shrink rfl (List.Sublist.refl _) (List.Sublist.refl _) (List.Sublist.refl _)
        le_rfl le_rfl
    · exact ordered.shrink rfl (List.Sublist.refl _) (List.Sublist.refl _) (List.Sublist.refl _)
        le_rfl le_rfl

theorem Moves.ordered (indexed : queues.Indexed) (ordered : queues.Ordered)
    (moves : queues.Moves after) : after.Ordered := by
  have drops : ∀ id, (queues.dropNextTick id).Ordered := fun id =>
    ordered.shrink rfl List.eraseP_sublist (List.Sublist.refl _) (List.Sublist.refl _) le_rfl le_rfl
  cases moves with
  | stays => exact ordered
  | pushImmediate ref =>
    refine ordered.push rfl fun kind inOrder => ?_
    cases kind with
    | immediate => exact .inr ⟨List.map_append, rfl⟩
    | _ => exact .inl ⟨rfl, Nat.le_succ _⟩
  | pushNextTick ref =>
    refine ordered.push rfl fun kind inOrder => ?_
    cases kind with
    | nextTick => exact .inr ⟨List.map_append, rfl⟩
    | _ => exact .inl ⟨rfl, le_rfl⟩
  | pushReady natives taskKind ref readyAt nativeRequestId ioCallback =>
    refine ordered.push rfl fun kind inOrder => ?_
    cases kind with
    | ready other batch =>
      by_cases same : readyAt = other
      · refine .inr ⟨?_, rfl⟩
        have alone : [ReadyTask.mk ioCallback queues.nextId taskKind nativeRequestId readyAt ref
            queues.nextSequence].filter (fun task => task.readyAt = other) =
            [⟨ioCallback, queues.nextId, taskKind, nativeRequestId, readyAt, ref,
              queues.nextSequence⟩] := List.filter_cons_of_pos (decide_eq_true same)
        simp only [waiting, Queues.pushReady, List.filter_append, List.map_append, alone]
        rfl
      · refine .inl ⟨?_, Nat.le_succ _⟩
        have none : [ReadyTask.mk ioCallback queues.nextId taskKind nativeRequestId readyAt ref
            queues.nextSequence].filter (fun task => task.readyAt = other) = [] :=
          List.filter_cons_of_neg (by simpa using same)
        simp only [waiting, Queues.pushReady, List.filter_append, none, List.append_nil]
    | _ => exact .inl ⟨rfl, Nat.le_succ _⟩
  | pushTimer dueAt intervalMs ref =>
    exact ordered.shrink rfl (List.Sublist.refl _) (List.Sublist.refl _) (List.Sublist.refl _)
      (Nat.le_succ _) (Nat.le_succ _)
  | cancelTask id queue found =>
    cases queue with
    | immediate =>
      exact ordered.shrink rfl (List.Sublist.refl _) (List.eraseP_sublist.map _)
        (List.Sublist.refl _) le_rfl le_rfl
    | nextTick => exact drops id
    | ready =>
      exact ordered.shrink rfl (List.Sublist.refl _) (List.Sublist.refl _) List.eraseP_sublist
        le_rfl le_rfl
  | cancelNativeRequest requestId =>
    exact ordered.shrink rfl (List.Sublist.refl _) (List.Sublist.refl _) List.filter_sublist
      le_rfl le_rfl
  | setImmediateRef id ref =>
    have same : (queues.setImmediateRef id ref).immediates.map ImmediateTask.sequence =
        queues.immediates.map ImmediateTask.sequence := by
      rw [Queues.setImmediateRef, List.map_map]
      refine List.map_congr_left fun task _ => ?_
      rw [Function.comp_apply]
      split
      · rfl
      · rfl
    exact ordered.shrink rfl (List.Sublist.refl _) (by rw [same]) (List.Sublist.refl _)
      le_rfl le_rfl
  | takesNextTick task rest taken =>
    rcases indexed.taken_nextTick taken with ⟨none, _⟩ | ⟨first, later, ticks, same, left⟩
    · cases none
    · cases same
      rw [left]
      refine ordered.execute (drops task.id) rfl rfl rfl fun _ => ?_
      have increasing := (List.pairwise_append.mp (ordered .nextTick trivial).increasing).2.1
      have listed : task ∈ queues.nextTicks := by rw [ticks]; exact List.mem_cons_self
      have tail : (queues.dropNextTick task.id).nextTicks = later := by
        have left : (task :: later).eraseP (fun other => other.id = task.id) = later :=
          List.eraseP_cons_of_pos (decide_eq_true rfl)
        rw [Queues.dropNextTick, ticks, left]
      show (task.id :: (queues.dropNextTick task.id).nextTicks.map NextTickTask.id).Sublist
        (queues.nextTicks.map NextTickTask.id)
      rw [tail, ticks]
      exact List.Sublist.refl _
  | dropsNextTick rest task taken =>
    rcases indexed.taken_nextTick taken with ⟨_, left⟩ | ⟨first, later, ticks, _, left⟩
    · rw [left]
      exact ordered
    · rw [left]
      exact drops first.id
  | takesTask now selected rest taken =>
    have takes := taken_of_take taken
    obtain ⟨kept, first⟩ := takes.first indexed ordered
    obtain ⟨ids, without, _⟩ := takes.without indexed
    exact ordered.execute kept without.executed without.nextId takes.nextSequence first
  | dropsTask now rest selected taken =>
    cases selected with
    | none =>
      rw [rest_of_take_none taken]
      exact ordered
    | some selected => exact ((taken_of_take taken).first indexed ordered).1
  | _ =>
    exact ordered.shrink rfl (List.Sublist.refl _) (List.Sublist.refl _) (List.Sublist.refl _)
      le_rfl le_rfl

theorem Steps.ordered (indexed : queues.Indexed) (ordered : queues.Ordered)
    (steps : queues.Steps after) : after.Ordered := by
  obtain ⟨between, advanced, moves⟩ := steps
  rcases advanced with same | ⟨id, now, same⟩
  · rw [same] at moves
    exact moves.ordered indexed ordered
  · have before : (queues.advanceIntervalDeadline id now).Indexed :=
      indexed.of_same rfl rfl (map_id_advance id now) rfl
    rw [same] at moves
    exact moves.ordered before ordered

theorem Ordered.cleared (ordered : queues.Ordered) : queues.clearPendingWork.Ordered :=
  ordered.shrink rfl (List.nil_sublist _) (List.nil_sublist _) (List.nil_sublist _) le_rfl le_rfl

end Queues

/-- What holds of the loop in every state. -/
structure Sound (loop : RuntimeEventLoop) : Prop where
  indexed : loop.queues.Indexed
  once : loop.queues.Once
  ordered : loop.queues.Ordered
  empty : loop.disposed = true → loop.queues.clearPendingWork = loop.queues

theorem sound_new : Sound .new where
  indexed := (Queues.indexed_clear : Queues.new.clearPendingWork.Indexed)
  once := ⟨List.nodup_nil, fun _ listed => absurd listed List.not_mem_nil,
    fun _ listed => absurd listed List.not_mem_nil, fun _ listed => absurd listed List.not_mem_nil,
    fun _ listed => absurd listed List.not_mem_nil⟩
  ordered kind inOrder := by
    cases kind with
    | _ => exact ⟨List.Pairwise.nil, fun _ listed => absurd listed List.not_mem_nil⟩
  empty disposed := absurd disposed Bool.false_ne_true

structure Calls (loop next : RuntimeEventLoop) : Prop where
  sound : Sound next
  calls : ∃ ran, next.queues.executed = loop.queues.executed ++ ran ∧ ∀ execution ∈ ran,
    loop.disposed = false ∧ execution.id ∈ loop.queues.present

theorem Sound.step {options : ResolvedOptions} {event : Event} {loop next : RuntimeEventLoop}
    (sound : Sound loop) (stepped : loop.step options event = some next) : Calls loop next := by
  by_cases disposed : loop.disposed = true
  · obtain ⟨still, same⟩ := RuntimeEventLoop.idle_of_disposed disposed
      (sound.empty disposed) stepped
    refine ⟨⟨same ▸ sound.indexed, same ▸ sound.once, same ▸ sound.ordered, fun _ => ?_⟩, [], ?_,
      fun _ listed => absurd listed List.not_mem_nil⟩
    · rw [same]
      exact sound.empty disposed
    · rw [same, List.append_nil]
  · obtain ⟨moved, steps, settled⟩ := RuntimeEventLoop.settled_of_step stepped
    have accounts := steps.accounts sound.indexed
    have once := sound.once.accounted sound.indexed accounts
    have ordered := steps.ordered sound.indexed sound.ordered
    obtain ⟨ran, executed, here⟩ := accounts.executed
    have calls : ∃ ran, moved.executed = loop.queues.executed ++ ran ∧ ∀ execution ∈ ran,
        loop.disposed = false ∧ execution.id ∈ loop.queues.present := by
      refine ⟨ran.toList, executed, fun execution listed => ?_⟩
      exact ⟨Bool.eq_false_iff.mpr disposed, (here execution (Option.mem_toList.mp listed)).1⟩
    rcases settled with ⟨kept, same⟩ | ⟨_, same⟩
    · rw [← same] at accounts once ordered calls
      exact ⟨⟨accounts.indexed, once, ordered, fun ended => absurd (kept ▸ ended) disposed⟩, calls⟩
    · refine ⟨⟨?_, ?_, ?_, fun _ => ?_⟩, ?_⟩
      · rw [same]
        exact Queues.indexed_clear
      · rw [same]
        exact once.cleared
      · rw [same]
        exact ordered.cleared
      · rw [same]
        rfl
      · rw [same]
        exact calls

/-- In every state of every run the index holds exactly the tasks of the queues and no id stands
twice; callbacks that may run once ran once; callbacks of one class ran in the order of their
admission; and no event calls a callback that was cancelled or calls one in a disposed loop. -/
theorem executes_once {options : ResolvedOptions} {events : List Event} {loop : RuntimeEventLoop}
    (reached : (eventLoopMachine options).Reaches events loop) :
    (∀ id queue, loop.queues.tasksById id = some queue ↔ (id, queue) ∈ loop.queues.entries) ∧
      (loop.queues.entries.map Prod.fst).Nodup ∧
      ((loop.queues.executed.filter fun execution => execution.OneShot).map Execution.id).Nodup ∧
      (∀ kind : ExecutionKind, kind.InOrder →
        ((loop.queues.executed.filter fun execution => execution.kind = kind).map
          Execution.order).Pairwise (· < ·)) ∧
      ∀ event next, loop.step options event = some next →
        ∃ ran, next.queues.executed = loop.queues.executed ++ ran ∧
          ∀ execution ∈ ran, loop.disposed = false ∧ execution.id ∉ loop.queues.cancelled := by
  have sound : Sound loop := reached.invariant sound_new
    fun state event next held stepped => (held.step stepped).sound
  refine ⟨sound.indexed.index, (List.nodup_append.mp sound.indexed.distinct).1, sound.once.once,
    fun kind inOrder => (List.pairwise_append.mp (sound.ordered kind inOrder).increasing).1, ?_⟩
  intro event next stepped
  obtain ⟨ran, executed, here⟩ := (sound.step stepped).calls
  refine ⟨ran, executed, fun execution listed => ⟨(here execution listed).1, fun cancelled => ?_⟩⟩
  exact sound.once.cancelled _ cancelled (here execution listed).2

/-- An immediate is queued, a turn calls it, and it queues a next tick, which is called in turn. -/
theorem executes_once_ticking : ∃ loop : RuntimeEventLoop,
    loop.queues.executed.map Execution.id = [1, 2] ∧
      ∀ event next, loop.step defaultOptions event = some next →
        ∃ ran, next.queues.executed = loop.queues.executed ++ ran ∧
          ∀ execution ∈ ran, loop.disposed = false ∧ execution.id ∉ loop.queues.cancelled := by
  have run : ((eventLoopMachine defaultOptions).run [⟨.enqueueImmediate true, some 0, none, false⟩,
      ⟨.runTurn, some 0, none, false⟩, ⟨.enqueueNextTick true, some 0, none, false⟩,
      ⟨.callbackReturns, some 0, none, false⟩]).map
        (fun loop => loop.queues.executed.map Execution.id) = some [1, 2] := by decide +kernel
  obtain ⟨loop, reached, executed⟩ := Machine.exists_of_run run
  exact ⟨loop, executed, (executes_once reached).2.2.2.2⟩

end Holonomy.EventLoop
