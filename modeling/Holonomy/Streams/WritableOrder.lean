import Holonomy.Streams.WritableSink

/-!
# What a writable stream does for its sink and its writers

Every step keeps the books of a stream. Therefore a sink is used as it should be, and nobody waits
for a stream that has ended, as long as no stream without room for a chunk is closed and no
operation ends a stream while the size of a chunk is computed.
-/

namespace Holonomy.Streams

open Foundation

variable {Chunk Reason : Type}

theorem WritableRecord.of_close {record : WritableRecord Chunk} (kind : record.kind = .close) :
    record.call = .close ∧ record.chunk = none ∧ record.closes := by
  unfold call chunk closes
  rw [kind]
  exact ⟨rfl, rfl, rfl⟩

theorem WritableRecord.of_write {record : WritableRecord Chunk} {chunk : Chunk}
    (kind : record.kind = .write chunk) :
    record.call = .write chunk ∧ record.chunk = some chunk ∧ record.closes = false := by
  unfold call WritableRecord.chunk closes
  rw [kind]
  exact ⟨rfl, rfl, rfl⟩

theorem SinkView.inFlight_called (view : SinkView Chunk) (call : SinkCall Chunk) :
    (view.next (.called call)).inFlight = some call := by
  cases call <;> rfl

namespace RuntimeWritableStream

variable {stream : RuntimeWritableStream Chunk Reason}

section Loop

section

variable (books : Books stream)

include books

/-- The loop may end when nothing waits. -/
theorem Steady.finish (pressed : Pressed stream) (opened : Opened stream)
    (running : stream.position.isRunning) (empty : stream.queue = []) : Steady stream.finish := by
  have runs := AdvancePosition.isIdle_of_isRunning running
  have quiet := AdvancePosition.record_of_isRunning running
  unfold RuntimeWritableStream.finish
  by_cases aborting : stream.state = .aborting
  · obtain ⟨waits, started⟩ := books.aborting aborting
    have notStarted : stream.abortStarted = false := started.trans runs
    have free : stream.inFlight = none := by
      unfold inFlight
      cases place : stream.position with
      | sink record =>
        rw [place] at quiet
        cases quiet
      | _ => simp [notStarted]
    have going := books.willAbort aborting notStarted
    have flying := books.flying.trans free
    have none := books.aborts
    simp only [notStarted, Bool.false_eq_true, and_false, if_false] at none
    dsimp only
    rw [if_pos aborting]
    unfold finishAbort
    rw [if_neg (by simp [aborting, notStarted])]
    exact {
      books := { books with
        advancing := rfl
        active := fun _ => rfl
        idle := fun _ => empty
        finished := fun _ => rfl
        erroring := fun erroring =>
          absurd (aborting.symm.trans erroring) WritableState.noConfusion
        aborting := fun _ => ⟨waits, rfl⟩
        aborts := by
          rw [List.countP_cons]
          simp only [aborting, true_and, if_true, WritableFrame.isAbort]
          omega
        fresh := fun writable =>
          absurd (aborting.symm.trans writable) WritableState.noConfusion
        closing := fun record none => by cases none
        requested := fun unasked => ⟨(books.requested unasked).1, fun record none => by cases none⟩
        sizes := books.sizes_quiet
        total := fun writable =>
          absurd (aborting.symm.trans writable) WritableState.noConfusion
        deferreds := by
          apply books.deferreds.moved
          intro id
          rw [owing_of_aborting aborting, owing_of_aborting (by exact aborting), quiet]
          rfl
        serves := books.serves.abort flying going
        flying := by
          rw [viewOf_append]
          simp [SinkView.next, inFlight, aborting]
        willAbort := fun _ never => by cases never }
      pressed := fun writable =>
        absurd (aborting.symm.trans writable) WritableState.noConfusion
      opened := fun writable =>
        absurd (aborting.symm.trans writable) WritableState.noConfusion
      resting := rfl }
  · have noAborts : stream.frames.countP WritableFrame.isAbort + stream.abortAwaited.toNat ≤ 0 := by
      have none := books.aborts
      simp only [aborting, false_and, if_false] at none
      exact none
    have free : stream.inFlight = none := by
      unfold inFlight
      cases place : stream.position with
      | sink record =>
        rw [place] at quiet
        cases quiet
      | _ => simp [aborting]
    have flying := books.flying.trans free
    by_cases erroring : stream.state = .erroring
    · obtain ⟨waits, _⟩ := books.erroring erroring
      dsimp only
      rw [if_neg aborting, if_pos erroring]
      unfold finishError
      rw [if_neg (by simp [erroring])]
      exact {
        books := { books with
          advancing := rfl
          active := fun _ => rfl
          idle := fun _ => empty
          stopped := fun _ => empty
          finished := fun _ => rfl
          erroring := by simp
          aborting := by simp
          promised := by simp
          aborts := by simpa using noAborts
          fresh := by simp
          closing := fun record none => by cases none
          requested := fun unasked =>
            ⟨(books.requested unasked).1, fun record none => by cases none⟩
          sizes := books.sizes_quiet
          total := by simp
          readies := by
            intro id below
            rcases books.readies id below with done | ⟨_, _, writable⟩
            · exact .inl done
            · rw [erroring] at writable
              cases writable
          closed := fun _ => books.closed (by simp [erroring])
          deferreds := by
            apply books.deferreds.moved
            intro id
            rw [owing_of_erroring erroring, owing_of_ended (.inr rfl), quiet]
            simp only [AdvancePosition.record, List.map_append, List.count_append, Option.map_none,
              Option.toList_none, List.count_nil]
            have same : (stream.errorDeferred.toList.map fun id =>
                ((id, .rejected stream.storedError) : ℕ × Settlement Reason)).map Prod.fst =
                  stream.errorDeferred.toList := by
              simp [List.map_map, Function.comp_def]
            rw [same]
            omega
          flying := by
            rw [flying]
            simp [inFlight]
          willAbort := by simp }
        pressed := fun writable => by cases writable
        opened := fun writable => by cases writable
        resting := rfl }
    · dsimp only
      rw [if_neg aborting, if_neg erroring]
      exact {
        books := { books with
          advancing := rfl
          active := fun _ => rfl
          idle := fun _ => empty
          finished := fun _ => rfl
          erroring := fun now => absurd now erroring
          aborting := fun now => absurd now aborting
          closing := fun record none => by cases none
          requested := fun unasked =>
            ⟨(books.requested unasked).1, fun record none => by cases none⟩
          sizes := books.sizes_quiet
          total := fun writable => by
            have before := books.total writable
            rw [quiet] at before
            exact before
          deferreds := by
            apply books.deferreds.moved
            intro id
            unfold owing
            rw [quiet]
            rfl
          flying := by
            rw [flying]
            simp [inFlight, aborting] }
        pressed := pressed
        opened := fun writable => by
          rcases opened writable with ⟨record, serving, _⟩ | view
          · rw [quiet] at serving
            cases serving
          · exact .inr view
        resting := rfl }

theorem Steady.advance (pressed : Pressed stream) (opened : Opened stream)
    (running : stream.position.isRunning) : Steady stream.advance := by
  have runs := AdvancePosition.isIdle_of_isRunning running
  have quiet := AdvancePosition.record_of_isRunning running
  unfold RuntimeWritableStream.advance
  cases waiting : stream.queue with
  | nil => exact .finish books pressed opened running waiting
  | cons record queue =>
    dsimp only
    by_cases writable : stream.state = .writable
    · have free := books.flying.trans (inFlight_of_writable writable quiet)
      have view : (viewOf stream.trace).ended = false ∧ (viewOf stream.trace).broken = false ∧
          (viewOf stream.trace).waiting = stream.queue.filterMap WritableRecord.chunk := by
        rcases opened writable with ⟨record, serving, _⟩ | view
        · rw [quiet] at serving
          cases serving
        · exact view
      obtain ⟨going, whole, waits⟩ := view
      rw [waiting] at waits
      have alone : record.closes → queue = [] := by
        intro closes
        by_contra more
        have listed : record ∈ stream.queue.dropLast := by
          rw [waiting, List.dropLast_cons_of_ne_nil more]
          exact List.mem_cons_self
        rw [books.last record listed] at closes
        cases closes
      have serves : Serves (stream.trace ++ [.called record.call]) := by
        cases kind : record.kind with
        | close =>
          obtain ⟨isCall, noChunk, closes⟩ := WritableRecord.of_close kind
          rw [isCall]
          apply books.serves.close free going whole
          rw [waits, alone closes, List.filterMap_cons_none noChunk]
          rfl
        | write chunk =>
          obtain ⟨isCall, isChunk, _⟩ := WritableRecord.of_write kind
          rw [isCall]
          apply books.serves.write free going whole
          rw [waits, List.filterMap_cons_some isChunk]
      rw [if_pos writable]
      exact {
        books := { books with
          advancing := by
            have flag := books.advancing
            rw [runs] at flag
            exact flag
          active := fun _ => rfl
          idle := fun idle => by cases idle
          stopped := fun stopped => absurd writable stopped
          finished := fun ended => by
            dsimp only at ended
            rw [writable] at ended
            rcases ended with ended | ended <;> cases ended
          erroring := fun erroring => ⟨(books.erroring erroring).1, rfl⟩
          aborting := fun aborting =>
            absurd (writable.symm.trans aborting) WritableState.noConfusion
          aborts := by
            have none := books.aborts
            rw [List.countP_cons]
            exact none
          closing := fun other serving closes => by
            have same : record = other := Option.some.inj serving
            rw [← same] at closes
            refine ⟨alone closes, ?_⟩
            rw [writable]
            exact WritableState.noConfusion
          last := fun other listed => by
            apply books.last other
            rw [waiting]
            by_cases none : queue = []
            · rw [none] at listed
              cases listed
            · rw [List.dropLast_cons_of_ne_nil none]
              exact List.mem_cons_of_mem _ listed
          requested := fun unasked => by
            have none := (books.requested unasked).1
            rw [waiting] at none
            refine ⟨fun other listed => none other (List.mem_cons_of_mem _ listed), ?_⟩
            intro other serving
            have same : record = other := Option.some.inj serving
            exact none other (same ▸ List.mem_cons_self)
          sizes := fun other among => by
            apply books.sizes other
            rw [waiting]
            rcases among with listed | serving
            · exact .inl (List.mem_cons_of_mem _ listed)
            · have same : record = other := Option.some.inj serving
              exact .inl (same ▸ List.mem_cons_self)
          total := fun _ => by
            have before := books.total writable
            rw [waiting, quiet] at before
            simp only [List.map_cons, List.sum_cons, Option.map_none, Option.getD_none,
              add_zero] at before
            simp only [AdvancePosition.record, Option.map_some, Option.getD_some]
            rw [before]
            ring
          deferreds := by
            apply books.deferreds.moved
            intro id
            rw [owing_of_writable writable, owing_of_writable (by exact writable), waiting, quiet]
            simp only [AdvancePosition.record, Option.map_some, Option.toList_some,
              List.map_cons, Option.map_none, Option.toList_none, List.append_nil]
            rw [List.count_append, List.count_cons, List.count_cons, List.count_nil]
            omega
          serves := serves
          flying := by
            rw [viewOf_append, SinkView.inFlight_called]
            rfl
          willAbort := fun aborting =>
            absurd (writable.symm.trans aborting) WritableState.noConfusion }
        pressed := by
          intro writable constructed
          apply pressed writable
          exact constructed
        opened := by
          intro _
          by_cases closes : record.closes
          · exact .inl ⟨record, rfl, closes⟩
          · refine .inr ?_
            rw [viewOf_append]
            cases kind : record.kind with
            | close => exact absurd (WritableRecord.of_close kind).2.2 closes
            | write chunk =>
              obtain ⟨isCall, isChunk, _⟩ := WritableRecord.of_write kind
              rw [isCall]
              refine ⟨going, whole, ?_⟩
              simp only [SinkView.next]
              rw [waits, List.filterMap_cons_some isChunk, List.tail_cons]
        resting := rfl }
    · have empty := books.stopped writable
      rw [waiting] at empty
      cases empty

theorem Steady.ended (ended : stream.state ≠ .writable)
    (resting : stream.position.isRunning = false) : Steady stream where
  books := books
  pressed := fun writable => absurd writable ended
  opened := fun writable => absurd writable ended
  resting := resting

theorem Steady.finishEnded (ended : stream.state ≠ .writable)
    (running : stream.position.isRunning) : Steady stream.finish :=
  .finish books (fun writable => absurd writable ended) (fun writable => absurd writable ended)
    running (books.stopped ended)

end

theorem position_rejectReady (stream : RuntimeWritableStream Chunk Reason) :
    stream.rejectReady.position = stream.position ∧ stream.rejectReady.state = stream.state := by
  unfold rejectReady
  split
  · exact ⟨rfl, rfl⟩
  · exact ⟨rfl, rfl⟩

theorem position_startError (error : Failure Reason) :
    (stream.startError error).position = stream.position ∧
      (stream.startError error).state = .erroring := by
  have kept : stream.withErrorDeferred.position = stream.position := by
    unfold withErrorDeferred
    split <;> rfl
  unfold startError
  obtain ⟨place, state⟩ := position_rejectReady (({ stream.withErrorDeferred with
    state := .erroring
    storedError := some error
    queueTotalSize := (stream.activeRecord.map WritableRecord.size).getD 0
    closeSettled := true
    trace := stream.trace ++ [SinkEvent.errored] } :
      RuntimeWritableStream Chunk Reason).rejectQueue error)
  exact ⟨place.trans kept, state⟩

theorem position_errorInternal (reason : Option (Failure Reason)) :
    (stream.errorInternal reason).position = stream.position := by
  unfold errorInternal
  split
  · rfl
  · split
    · exact (position_startError _).1
    · unfold finishError
      split
      · exact (position_startError _).1
      · exact (position_startError _).1

theorem writableState_errorInternal (reason : Option (Failure Reason)) :
    (stream.errorInternal reason).state ≠ .writable := by
  unfold errorInternal
  by_cases writable : stream.state = .writable
  · rw [if_neg (not_not.mpr writable)]
    split
    · rw [(position_startError _).2]
      exact WritableState.noConfusion
    · unfold finishError
      rw [if_neg (not_not.mpr (position_startError _).2)]
      exact WritableState.noConfusion
  · rw [if_pos writable]
    exact writable

theorem Steady.errorInternal (steady : Steady stream) (reason : Option (Failure Reason)) :
    Steady (stream.errorInternal reason) := by
  apply Steady.ended (steady.books.errorInternal reason) (writableState_errorInternal reason)
  rw [position_errorInternal]
  exact steady.resting

theorem Steady.errorFinish (books : Books stream) (running : stream.position.isRunning)
    (reason : Option (Failure Reason)) : Steady (stream.errorInternal reason).finish := by
  apply Steady.finishEnded (books.errorInternal reason) (writableState_errorInternal reason)
  rw [position_errorInternal]
  exact running

end Loop

section Records

variable {record : WritableRecord Chunk}

theorem Books.total_freed (books : Books stream) (serving : stream.position = .sink record)
    (writable : stream.state = .writable) :
    max 0 (stream.queueTotalSize - record.size) = (stream.queue.map WritableRecord.size).sum := by
  have total := books.total writable
  rw [serving] at total
  simp only [AdvancePosition.record, Option.map_some, Option.getD_some] at total
  have positive : 0 ≤ (stream.queue.map WritableRecord.size).sum := by
    apply List.sum_nonneg
    intro size listed
    obtain ⟨other, among, same⟩ := List.mem_map.mp listed
    rw [← same]
    exact (books.sizes other (.inl among)).1
  rw [total, add_sub_cancel_right]
  exact max_eq_right positive

theorem state_of_isPendingTerminal :
    stream.isPendingTerminal = true ↔ stream.state = .aborting ∨ stream.state = .erroring := by
  unfold isPendingTerminal
  simp

theorem not_writable_of_isPendingTerminal (terminal : stream.isPendingTerminal = true) :
    stream.state ≠ .writable := by
  rcases state_of_isPendingTerminal.mp terminal with state | state
  · rw [state]
    exact WritableState.noConfusion
  · rw [state]
    exact WritableState.noConfusion

theorem Books.isPendingTerminal_of_serving (books : Books stream)
    (serving : stream.position.record = some record) (ended : stream.state ≠ .writable) :
    stream.isPendingTerminal = true := by
  have finished := books.finished
  rw [serving] at finished
  cases state : stream.state with
  | writable => exact absurd state ended
  | closed => cases finished (.inl state)
  | errored => cases finished (.inr state)
  | aborting => exact state_of_isPendingTerminal.mpr (.inl state)
  | erroring => exact state_of_isPendingTerminal.mpr (.inr state)

theorem pressed_updateBackpressure : Pressed stream.updateBackpressure := by
  unfold updateBackpressure
  by_cases writable : stream.state = .writable
  · rw [if_neg (not_not.mpr writable)]
    dsimp only
    split
    · rename_i same
      exact fun _ _ => same.symm
    · split
      · rename_i presses
        exact fun _ _ => presses.symm
      · rename_i eases
        intro _ _
        exact (Bool.not_eq_true _).mp eases |>.symm
  · rw [if_pos writable]
    exact fun now => absurd now writable

theorem exists_updateBackpressure (stream : RuntimeWritableStream Chunk Reason) :
    ∃ backpressure ready readySettled,
      stream.updateBackpressure = { stream with backpressure, ready, readySettled } := by
  unfold updateBackpressure
  split
  · exact ⟨stream.backpressure, stream.ready, stream.readySettled, rfl⟩
  · dsimp only
    split
    · exact ⟨stream.backpressure, stream.ready, stream.readySettled, rfl⟩
    · split
      · exact ⟨true, stream.ready + 1, stream.readySettled, rfl⟩
      · exact ⟨false, stream.ready, stream.readySettled ++ [stream.ready], rfl⟩

theorem Opened.updateBackpressure (opened : Opened stream) : Opened stream.updateBackpressure := by
  obtain ⟨backpressure, ready, readySettled, same⟩ := exists_updateBackpressure stream
  rw [same]
  exact opened

theorem Steady.closeSucceeded (steady : Steady stream) (serving : stream.position = .sink record)
    (closes : record.closes) (constructed : stream.constructing = false)
    (room : stream.state = .writable → 0 < stream.highWaterMark) :
    Steady (stream.closeSucceeded record) := by
  have books := steady.books
  have isServed : stream.position.record = some record := by
    rw [serving]
    rfl
  have fits : stream.state = .writable →
      stream.queueTotalSize = (stream.queue.map WritableRecord.size).sum := by
    intro writable
    have total := books.total writable
    rw [isServed, Option.map_some, Option.getD_some, (books.sizes record (.inr isServed)).2 closes,
      add_zero] at total
    exact total
  unfold RuntimeWritableStream.closeSucceeded
  by_cases terminal : stream.isPendingTerminal = true
  · rw [if_pos terminal]
    have served := books.served serving stream.activeRecord stream.queueTotalSize fits true
      (.rejected stream.storedError)
    exact .finishEnded served (not_writable_of_isPendingTerminal terminal) rfl
  · rw [if_neg terminal]
    by_cases writable : stream.state = .writable
    · rw [if_neg (not_not.mpr writable)]
      have served := books.served serving none stream.queueTotalSize fits true .resolved
      have empty := (books.closing record isServed closes).1
      have ready : stream.backpressure = false := by
        rw [steady.pressed writable constructed, fits writable, empty, decide_eq_false_iff_not]
        simpa using room writable
      have closed := served.close writable empty rfl ready
      have unchanged : ({ stream with
          activeRecord := none
          state := .closed
          closeSettled := true }.served record true .resolved).updateBackpressure =
            { stream with
              activeRecord := none
              state := .closed
              closeSettled := true }.served record true .resolved :=
                if_pos WritableState.noConfusion
      dsimp only
      rw [unchanged]
      exact .finishEnded closed WritableState.noConfusion rfl
    · exact absurd (books.isPendingTerminal_of_serving isServed writable) terminal

/-- The loop goes on after the sink has written. -/
theorem Steady.writeSucceeded (steady : Steady stream) (serving : stream.position = .sink record)
    (writes : record.closes = false) : Steady (stream.writeSucceeded record) := by
  have books := steady.books
  have isServed : stream.position.record = some record := by
    rw [serving]
    rfl
  have served := books.served serving none (max 0 (stream.queueTotalSize - record.size))
    (books.total_freed serving) true .resolved
  unfold RuntimeWritableStream.writeSucceeded
  by_cases terminal : stream.isPendingTerminal = true
  · rw [if_pos terminal]
    exact .finishEnded served (not_writable_of_isPendingTerminal terminal) rfl
  · rw [if_neg terminal]
    by_cases writable : stream.state = .writable
    · rw [if_neg (not_not.mpr writable)]
      have opened : Opened (({ stream with activeRecord := none }.freed record).served record true
          .resolved) := by
        intro _
        rcases steady.opened writable with ⟨other, isOther, closes⟩ | ⟨going, whole, waits⟩
        · rw [isServed] at isOther
          rw [← Option.some.inj isOther, writes] at closes
          cases closes
        · refine .inr ?_
          simp only [RuntimeWritableStream.served, freed, viewOf_append, SinkView.next]
          exact ⟨going, by simp [whole], waits⟩
      apply Steady.advance
      · exact served.updateBackpressure
      · exact pressed_updateBackpressure
      · exact opened.updateBackpressure
      · obtain ⟨backpressure, ready, readySettled, same⟩ := exists_updateBackpressure
          (({ stream with activeRecord := none }.freed record).served record true .resolved)
        rw [same]
        rfl
    · exact absurd (books.isPendingTerminal_of_serving isServed writable) terminal

theorem Steady.failed (steady : Steady stream) (serving : stream.position = .sink record)
    (error : Option (Failure Reason)) : Steady (stream.failed record error) := by
  have books := steady.books
  have isServed : stream.position.record = some record := by
    rw [serving]
    rfl
  unfold RuntimeWritableStream.failed
  cases kind : record.kind with
  | close =>
    have fits : stream.state = .writable →
        stream.queueTotalSize = (stream.queue.map WritableRecord.size).sum := by
      intro writable
      have total := books.total writable
      rw [isServed, Option.map_some, Option.getD_some,
        (books.sizes record (.inr isServed)).2 (WritableRecord.of_close kind).2.2, add_zero]
          at total
      exact total
    have served := books.served serving stream.activeRecord stream.queueTotalSize fits false
      (.rejected error)
    apply Steady.errorFinish _ rfl
    exact { served with }
  | write chunk =>
    have served := books.served serving stream.activeRecord
      (max 0 (stream.queueTotalSize - record.size)) (books.total_freed serving) false
        (.rejected error)
    unfold writeFailed
    dsimp only
    split
    · rename_i terminal
      exact .finishEnded served (not_writable_of_isPendingTerminal terminal) rfl
    · exact .errorFinish served rfl error

end Records

section Calls

theorem Steady.settleNow (steady : Steady stream) (settlement : Settlement Reason) :
    Steady (stream.settleNow settlement) where
  books := steady.books.settleNow settlement
  pressed := steady.pressed
  opened := steady.opened
  resting := steady.resting

theorem advanceQueue_updateBackpressure (stream : RuntimeWritableStream Chunk Reason) :
    stream.updateBackpressure.advanceQueue = stream.advanceQueue.updateBackpressure := by
  unfold updateBackpressure advanceQueue
  by_cases runs : stream.advancing = true
  · simp only [runs, if_true]
    split
    · rfl
    · split
      · rfl
      · split <;> rfl
  · rw [Bool.not_eq_true] at runs
    simp only [runs, Bool.false_eq_true, if_false]
    split
    · simp [runs]
    · split
      · simp [runs]
      · split
        · simp [runs]
        · simp [runs]

theorem isRunning_advanceQueue (resting : stream.position.isRunning = false) :
    stream.advanceQueue.position.isRunning = false := by
  unfold advanceQueue
  split
  · exact resting
  · rfl

theorem view_advanceQueue (stream : RuntimeWritableStream Chunk Reason) :
    stream.advanceQueue.trace = stream.trace ∧ stream.advanceQueue.queue = stream.queue := by
  unfold advanceQueue
  split
  · exact ⟨rfl, rfl⟩
  · exact ⟨rfl, rfl⟩

theorem Steady.view (steady : Steady stream) (writable : stream.state = .writable)
    (going : stream.closeRequested = false) :
    (viewOf stream.trace).ended = false ∧ (viewOf stream.trace).broken = false ∧
      (viewOf stream.trace).waiting = stream.queue.filterMap WritableRecord.chunk := by
  rcases steady.opened writable with ⟨record, serving, closes⟩ | view
  · rw [(steady.books.requested going).2 record serving] at closes
    cases closes
  · exact view

theorem Steady.accept (steady : Steady stream) (writable : stream.state = .writable)
    (going : stream.closeRequested = false) (chunk : Chunk) (answer : SizeAnswer Reason) :
    Steady (stream.accept chunk answer) := by
  obtain ⟨notEnded, whole, waits⟩ := steady.view writable going
  unfold RuntimeWritableStream.accept
  cases normal : normalizeWebChunkSize answer with
  | error error => exact (steady.errorInternal error).settleNow _
  | ok size =>
    dsimp only
    rw [advanceQueue_updateBackpressure]
    have pushed : Books (stream.pushWrite chunk size).advanceQueue :=
      steady.books.push writable going (.write chunk) rfl (size_nonneg normal)
        (fun same => by cases same) (fun _ same => by cases same)
        (steady.books.serves.accepted chunk notEnded) (by rw [viewOf_append]; rfl)
    have opened : Opened (stream.pushWrite chunk size).advanceQueue := by
      obtain ⟨trace, queue⟩ := view_advanceQueue (stream.pushWrite chunk size)
      intro _
      rw [trace, queue]
      refine .inr ?_
      simp only [viewOf_append, SinkView.next, pushWrite, RuntimeWritableStream.push]
      refine ⟨notEnded, whole, ?_⟩
      rw [waits, List.filterMap_append]
      rfl
    exact {
      books := pushed.updateBackpressure
      pressed := pressed_updateBackpressure
      opened := opened.updateBackpressure
      resting := by
        obtain ⟨backpressure, ready, readySettled, same⟩ :=
          exists_updateBackpressure (stream.pushWrite chunk size).advanceQueue
        rw [same]
        exact isRunning_advanceQueue steady.resting }

theorem writable_of_not_refused
    (allowed : ¬ (stream.state ≠ .writable ∨ stream.closeRequested)) :
    stream.state = .writable ∧ stream.closeRequested = false := by
  obtain ⟨writable, going⟩ := not_or.mp allowed
  exact ⟨not_not.mp writable, Bool.not_eq_true _ |>.mp going⟩

theorem Steady.writeFromWriter (steady : Steady stream) (chunk : Chunk) :
    Steady (stream.writeFromWriter chunk) := by
  unfold RuntimeWritableStream.writeFromWriter
  split
  · exact steady.settleNow _
  · split
    · exact steady.settleNow _
    · rename_i allowed
      obtain ⟨writable, going⟩ := writable_of_not_refused allowed
      split
      · exact {
          books := { steady.books with
            aborts := by
              rw [List.countP_cons]
              exact steady.books.aborts }
          pressed := steady.pressed
          opened := steady.opened
          resting := steady.resting }
      · exact steady.accept writable going chunk .absent

theorem Steady.closeInternal (steady : Steady stream) : Steady stream.closeInternal := by
  unfold RuntimeWritableStream.closeInternal
  split
  · exact steady.settleNow _
  · split
    · exact steady.settleNow _
    · rename_i allowed
      obtain ⟨writable, going⟩ := writable_of_not_refused allowed
      obtain ⟨notEnded, whole, waits⟩ := steady.view writable going
      have pushed : Books ({ stream with closeRequested := true }.push .close 0).advanceQueue :=
        steady.books.push writable going .close (add_zero _).symm le_rfl (fun _ => rfl)
          (fun unasked => by cases unasked) steady.books.serves rfl
      exact {
        books := pushed
        pressed := by
          unfold advanceQueue
          split
          · exact steady.pressed
          · exact steady.pressed
        opened := by
          obtain ⟨trace, queue⟩ := view_advanceQueue
            ({ stream with closeRequested := true }.push .close 0)
          intro _
          rw [trace, queue]
          refine .inr ⟨notEnded, whole, ?_⟩
          simp only [RuntimeWritableStream.push]
          rw [List.filterMap_append]
          exact waits.trans (List.append_nil _).symm
        resting := isRunning_advanceQueue steady.resting }

theorem state_startAbort (reason : Option (Failure Reason)) :
    (stream.startAbort reason).state = .aborting := by
  have kept : ∀ stream : RuntimeWritableStream Chunk Reason,
      stream.advanceQueue.state = stream.state := by
    intro stream
    unfold advanceQueue
    split <;> rfl
  unfold startAbort
  rw [kept, (position_rejectReady _).2]
  rfl

theorem isRunning_startAbort (resting : stream.position.isRunning = false)
    (reason : Option (Failure Reason)) :
    (stream.startAbort reason).position.isRunning = false := by
  unfold startAbort
  apply isRunning_advanceQueue
  rw [(position_rejectReady _).1]
  exact resting

theorem Steady.abortInternal (steady : Steady stream) (reason : Option (Failure Reason))
    (writer : Option ℕ) : Steady (stream.abortInternal reason writer) := by
  have books := steady.books
  unfold RuntimeWritableStream.abortInternal
  by_cases gone : stream.state = .closed ∨ stream.state = .errored
  · rw [if_pos gone]
    exact steady.settleNow _
  · rw [if_neg gone]
    by_cases promised : stream.abortPromise.isSome = true
    · rw [if_pos promised]
      exact steady
    · rw [if_neg promised]
      by_cases erroring : stream.state = .erroring
      · rw [if_pos erroring]
        split
        · exact steady
        · exact steady.settleNow _
      · rw [if_neg erroring]
        have writable : stream.state = .writable := by
          cases state : stream.state with
          | writable => rfl
          | closed => exact absurd (.inl state) gone
          | errored => exact absurd (.inr state) gone
          | aborting => exact absurd (books.promised state) promised
          | erroring => exact absurd state erroring
        have active := books.active steady.resting
        by_cases closing : stream.isClosing = true
        · rw [if_pos closing]
          exact {
            books := { books with
              promised := fun aborting =>
                absurd (writable.symm.trans aborting) WritableState.noConfusion
              promises := fun id shared => by
                rcases shared with abort | error
                · obtain ⟨record, isActive, same⟩ := Option.map_eq_some_iff.mp abort
                  apply books.deferreds.lt
                  rw [owing_of_writable writable, ← active, isActive, ← same]
                  simp
                · exact books.promises id (.inr error) }
            pressed := steady.pressed
            opened := steady.opened
            resting := steady.resting }
        · rw [if_neg closing]
          have notClosing : ∀ record, stream.position.record = some record →
              record.closes = false := by
            intro record serving
            rw [← Bool.not_eq_true]
            intro closes
            apply closing
            unfold isClosing
            rw [active, serving]
            exact closes
          have going := steady.opened writable
          apply Steady.ended
          · exact books.startAbort writable notClosing (going.imp_right fun view => view.1) reason
          · rw [state_startAbort]
            exact WritableState.noConfusion
          · exact isRunning_startAbort steady.resting reason

variable {frames : List (WritableFrame Chunk)}

theorem Steady.aborted (steady : Steady stream) (aborting : stream.state = .aborting)
    (started : stream.abortStarted = true)
    (none : frames.countP WritableFrame.isAbort = 0) (succeeded : Bool)
    (settlement : Settlement Reason) :
    Steady ({ stream with frames }.aborted succeeded settlement) := by
  have books := steady.books
  have idle : stream.position.isIdle = true := (books.aborting aborting).2.symm.trans started
  have quiet := AdvancePosition.record_of_isIdle idle
  have flying : (viewOf stream.trace).inFlight = some .abort := by
    rw [books.flying]
    unfold inFlight
    cases place : stream.position with
    | sink record =>
      rw [place] at idle
      cases idle
    | _ => simp [aborting, started]
  have ids : (stream.abortDeferred.toList.map fun id =>
      ((id, settlement) : ℕ × Settlement Reason)).map Prod.fst = stream.abortDeferred.toList := by
    simp [List.map_map, Function.comp_def]
  have after : Books ({ stream with frames }.aborted succeeded settlement) := { books with
    stopped := fun _ => books.stopped (by simp [aborting])
    finished := fun _ => quiet
    erroring := fun erroring => by cases erroring
    aborting := fun aborting => by cases aborting
    promised := fun aborting => by cases aborting
    aborts := by simp [RuntimeWritableStream.aborted, none]
    fresh := fun writable => by cases writable
    closing := fun record serving => by
      cases quiet.symm.trans serving
    total := fun writable => by cases writable
    readies := by
      intro id below
      rcases books.readies id below with done | ⟨_, _, writable⟩
      · exact .inl done
      · rw [aborting] at writable
        cases writable
    closed := fun _ => books.closed (by simp [aborting])
    deferreds := by
      apply books.deferreds.moved
      intro id
      rw [owing_of_aborting aborting, owing_of_ended (.inr rfl)]
      simp only [RuntimeWritableStream.aborted, List.map_append, List.count_append, ids]
      omega
    serves := books.serves.finished succeeded flying
    flying := by
      simp only [RuntimeWritableStream.aborted]
      rw [viewOf_append]
      unfold inFlight
      cases place : stream.position with
      | sink record =>
        rw [place] at idle
        cases idle
      | _ => simp [SinkView.next]
    willAbort := fun aborting => by cases aborting }
  exact .ended after WritableState.noConfusion steady.resting

theorem Steady.pop (steady : Steady stream) {frame : WritableFrame Chunk}
    (innermost : stream.frames = frame :: frames)
    (notAbort : frame.isAbort = false) (notStart : frame.isStart = false) :
    Steady { stream with frames } where
  books := { steady.books with
    aborts := by
      have before := steady.books.aborts
      rw [innermost, List.countP_cons] at before
      simp only [notAbort, Bool.false_eq_true, if_false, add_zero] at before
      exact before }
  pressed := by
    intro writable constructed
    apply steady.pressed writable
    unfold constructing at constructed ⊢
    rw [innermost, List.any_cons, notStart, Bool.false_or]
    exact constructed
  opened := steady.opened
  resting := steady.resting

theorem Books.abort_of_waits (books : Books stream)
    (waits : 0 < stream.frames.countP WritableFrame.isAbort + stream.abortAwaited.toNat) :
    (stream.state = .aborting ∧ stream.abortStarted = true) ∧
      stream.frames.countP WritableFrame.isAbort + stream.abortAwaited.toNat = 1 := by
  have most := books.aborts
  by_cases started : stream.state = .aborting ∧ stream.abortStarted = true
  · rw [if_pos started] at most
    exact ⟨started, by omega⟩
  · rw [if_neg started] at most
    omega

theorem Books.abort_innermost (books : Books stream)
    (innermost : stream.frames = .abort :: frames) :
    stream.state = .aborting ∧ stream.abortStarted = true ∧
      frames.countP WritableFrame.isAbort + stream.abortAwaited.toNat = 0 := by
  have counted : stream.frames.countP WritableFrame.isAbort =
      frames.countP WritableFrame.isAbort + 1 := by
    rw [innermost, List.countP_cons]
    simp only [WritableFrame.isAbort, if_true]
  obtain ⟨⟨aborting, started⟩, one⟩ := books.abort_of_waits (by omega)
  exact ⟨aborting, started, by omega⟩

theorem Steady.abortSettled (steady : Steady stream) {succeeded : Bool}
    {settlement : Settlement Reason} {next : RuntimeWritableStream Chunk Reason}
    (stepped : stream.abortSettled succeeded settlement = some next) : Steady next := by
  unfold RuntimeWritableStream.abortSettled at stepped
  by_cases waits : stream.frames = [] ∧ stream.abortAwaited = true
  · rw [if_pos waits] at stepped
    have waiting : 0 < stream.frames.countP WritableFrame.isAbort + stream.abortAwaited.toNat := by
      rw [waits.2, Bool.toNat_true]
      omega
    obtain ⟨⟨aborting, started⟩, _⟩ := steady.books.abort_of_waits waiting
    have none : stream.frames.countP WritableFrame.isAbort = 0 := by
      rw [waits.1]
      rfl
    rw [← Option.some.inj stepped]
    exact steady.aborted aborting started none succeeded settlement
  · rw [if_neg waits] at stepped
    cases stepped

/-- The loop may go on after `start`. -/
theorem Steady.running (steady : Steady stream) (quiet : stream.position.record = none)
    (runs : stream.position.isIdle = false) :
    Books { stream with position := .running } ∧ Pressed { stream with position := .running } ∧
      Opened { stream with position := .running } := by
  have books := steady.books
  refine ⟨{ books with
    advancing := ?_
    active := ?_
    idle := ?_
    finished := ?_
    erroring := ?_
    aborting := ?_
    closing := ?_
    requested := ?_
    sizes := ?_
    total := ?_
    deferreds := ?_
    flying := ?_ }, steady.pressed, ?_⟩
  · exact books.advancing.trans (by rw [runs]; rfl)
  · exact fun resting => by cases resting
  · exact fun idle => by cases idle
  · exact fun _ => rfl
  · exact fun erroring => ⟨(books.erroring erroring).1, rfl⟩
  · intro aborting
    have before := books.aborting aborting
    rw [runs] at before
    exact before
  · exact fun record none => by cases none
  · exact fun unasked => ⟨(books.requested unasked).1, fun record none => by cases none⟩
  · exact books.sizes_quiet
  · intro writable
    have before := books.total writable
    rw [quiet] at before
    exact before
  · apply books.deferreds.moved
    intro id
    unfold owing
    rw [quiet]
    rfl
  · have flying := books.flying
    unfold inFlight at flying ⊢
    cases place : stream.position with
    | sink record =>
      rw [place] at quiet
      cases quiet
    | _ =>
      rw [place] at flying
      exact flying
  · intro writable
    rcases steady.opened writable with ⟨record, serving, _⟩ | view
    · rw [quiet] at serving
      cases serving
    · exact .inr view

end Calls

def careful (stream : RuntimeWritableStream Chunk Reason) : WritableEvent Chunk Reason → Bool
  | .sinkResolved => !(stream.position.record.any WritableRecord.closes) ||
      stream.state ≠ .writable || 0 < stream.highWaterMark
  | .sizeReturned _ => stream.state = .writable && !stream.closeRequested
  | _ => true

theorem Steady.step (steady : Steady stream) {event : WritableEvent Chunk Reason}
    {next : RuntimeWritableStream Chunk Reason} (care : stream.careful event = true)
    (stepped : stream.step event = some next) : Steady next := by
  have books := steady.books
  have constructed : ∀ after, stream.constructed after = some next → Steady after →
      Steady next := by
    intro after came kept
    unfold RuntimeWritableStream.constructed at came
    split at came
    · cases came
    · cases came
      exact kept
  have byWriter : ∀ writer after, Steady after → Steady (stream.byWriter writer after) := by
    intro writer after kept
    unfold RuntimeWritableStream.byWriter
    split
    · exact kept
    · exact steady.settleNow _
  cases event with
  | startReturned =>
    change stream.startReturned = some next at stepped
    unfold startReturned at stepped
    split at stepped
    · rename_i frames innermost
      cases stepped
      have popped : Books { stream with frames } := { books with
        aborts := by
          have before := books.aborts
          rw [innermost, List.countP_cons] at before
          exact before }
      have opened : Opened { stream with frames } := steady.opened
      exact {
        books := popped.updateBackpressure
        pressed := pressed_updateBackpressure
        opened := opened.updateBackpressure
        resting := by
          obtain ⟨backpressure, ready, readySettled, same⟩ :=
            exists_updateBackpressure { stream with frames }
          rw [same]
          exact steady.resting }
    · cases stepped
  | startResolved =>
    change stream.startSettled .resolved = some next at stepped
    unfold startSettled at stepped
    split at stepped
    · cases stepped
    · cases stepped
      exact ⟨{ books with }, steady.pressed, steady.opened, steady.resting⟩
  | startRejected error =>
    change stream.startSettled (.rejected error false) = some next at stepped
    unfold startSettled at stepped
    split at stepped
    · cases stepped
    · cases stepped
      exact ⟨{ books with }, steady.pressed, steady.opened, steady.resting⟩
  | startHandled =>
    change stream.startHandled = some next at stepped
    unfold startHandled at stepped
    split at stepped
    · cases stepped
      apply Steady.errorInternal
      exact ⟨{ books with }, steady.pressed, steady.opened, steady.resting⟩
    · cases stepped
  | startAwaited =>
    change stream.startAwaited = some next at stepped
    unfold startAwaited at stepped
    split at stepped
    · rename_i noFrames awaiting resolved
      cases stepped
      have running := steady.running (by rw [awaiting]; rfl) (by rw [awaiting]; rfl)
      exact .advance running.1 running.2.1 running.2.2 rfl
    · rename_i error noFrames awaiting rejected
      cases stepped
      have running := steady.running (by rw [awaiting]; rfl) (by rw [awaiting]; rfl)
      split
      · rename_i terminal
        exact .finishEnded running.1 (not_writable_of_isPendingTerminal terminal) rfl
      · exact .errorFinish running.1 rfl error
    · cases stepped
  | error reason =>
    cases stepped
    exact steady.errorInternal reason
  | getWriter =>
    apply constructed _ stepped
    unfold getWriter
    split
    · exact steady
    · refine ⟨{ books with sources := ?_ }, steady.pressed, steady.opened, steady.resting⟩
      exact forall_mem_concat books.sources le_rfl
  | readReady writer =>
    apply constructed _ stepped
    unfold readReady
    split
    · refine ⟨{ books with sources := ?_ }, steady.pressed, steady.opened, steady.resting⟩
      exact forall_mem_concat books.sources le_rfl
    · exact steady
  | releaseLock writer =>
    apply constructed _ stepped
    unfold releaseLock
    split
    · exact ⟨{ books with }, steady.pressed, steady.opened, steady.resting⟩
    · exact steady
  | write writer chunk => exact constructed _ stepped (byWriter _ _ (steady.writeFromWriter chunk))
  | sizeReturned answer =>
    change stream.sizeReturned answer = some next at stepped
    unfold sizeReturned at stepped
    split at stepped
    · rename_i chunk frames innermost
      cases stepped
      unfold careful at care
      rw [Bool.and_eq_true, decide_eq_true_iff, Bool.not_eq_true'] at care
      exact (steady.pop innermost rfl rfl).accept care.1 care.2 chunk answer
    · cases stepped
  | closeFromWriter writer => exact constructed _ stepped (byWriter _ _ steady.closeInternal)
  | close =>
    apply constructed _ stepped
    split
    · exact steady.settleNow _
    · exact steady.closeInternal
  | abortFromWriter writer reason =>
    exact constructed _ stepped (byWriter _ _ (steady.abortInternal reason _))
  | abort reason =>
    apply constructed _ stepped
    split
    · exact steady.settleNow _
    · exact steady.abortInternal reason none
  | abortFromPeer reason => exact constructed _ stepped (steady.abortInternal reason none)
  | sinkReturned =>
    change stream.sinkReturned = some next at stepped
    unfold sinkReturned at stepped
    split at stepped
    · rename_i frames innermost
      cases stepped
      exact steady.pop innermost rfl rfl
    · cases stepped
  | sinkThrew error =>
    change stream.sinkThrew error = some next at stepped
    unfold sinkThrew at stepped
    split at stepped
    · rename_i frames record innermost serving
      cases stepped
      exact (steady.pop innermost rfl rfl).failed serving error
    · cases stepped
  | sinkResolved =>
    change stream.sinkResolved = some next at stepped
    unfold sinkResolved at stepped
    split at stepped
    · rename_i record noFrames serving
      cases stepped
      unfold succeeded
      cases kind : record.kind with
      | close =>
        have closes := (WritableRecord.of_close kind).2.2
        have constructed : stream.constructing = false := by
          unfold constructing
          rw [noFrames]
          rfl
        apply steady.closeSucceeded serving closes constructed
        intro writable
        unfold careful at care
        rw [serving] at care
        simpa [AdvancePosition.record, closes, writable] using care
      | write chunk => exact steady.writeSucceeded serving (WritableRecord.of_write kind).2.2
    · cases stepped
  | sinkRejected error =>
    change stream.sinkRejected error = some next at stepped
    unfold sinkRejected at stepped
    split at stepped
    · rename_i record noFrames serving
      cases stepped
      exact steady.failed serving error
    · cases stepped
  | abortReturned =>
    change stream.abortReturned = some next at stepped
    unfold abortReturned at stepped
    split at stepped
    · rename_i frames innermost
      cases stepped
      obtain ⟨aborting, started, none⟩ := books.abort_innermost innermost
      apply Steady.ended
      · exact { books with
          aborts := by
            simp only [aborting, started, and_self, if_true, Bool.toNat_true]
            omega }
      · dsimp only
        rw [aborting]
        exact WritableState.noConfusion
      · exact steady.resting
    · cases stepped
  | abortThrew error =>
    change stream.abortThrew error = some next at stepped
    unfold abortThrew at stepped
    split at stepped
    · rename_i frames innermost
      cases stepped
      obtain ⟨aborting, started, none⟩ := books.abort_innermost innermost
      exact steady.aborted aborting started (by omega) false _
    · cases stepped
  | _ => exact steady.abortSettled stepped

def Ended (stream : RuntimeWritableStream Chunk Reason) : Prop :=
  stream.state = .closed ∨ stream.state = .errored

def ClosedPending (stream : RuntimeWritableStream Chunk Reason) (writer : ℕ) : Prop :=
  stream.closeSettled = false ∧ writer ∉ stream.released ∧ writer ∉ stream.closedAborted

def ReadyPending (stream : RuntimeWritableStream Chunk Reason) (source : ℕ × ℕ) : Prop :=
  source.2 ∉ stream.readySettled ∧ source.1 ∉ stream.released

structure KeepsPromises (stream : RuntimeWritableStream Chunk Reason) : Prop where
  serves : Serves stream.trace
  /-- No promise of a write, a close or an abort is settled twice. -/
  once : (stream.settlements.map Prod.fst).Nodup
  shared : ∀ id, stream.abortPromise = some id ∨ stream.errorDeferred = some id →
    id < stream.deferreds
  /-- At the end every promise of a write, a close or an abort is settled. -/
  settled : stream.Ended → ∀ id < stream.deferreds, id ∈ stream.settlements.map Prod.fst
  closed : stream.Ended → ∀ writer < stream.writers, ¬ stream.ClosedPending writer
  ready : stream.Ended → ∀ source ∈ stream.readySources, ¬ stream.ReadyPending source

theorem Steady.keepsPromises (steady : Steady stream) : KeepsPromises stream := by
  have books := steady.books
  have notWritable : stream.Ended → stream.state ≠ .writable := by
    intro ended writable
    rcases ended with closed | errored
    · rw [writable] at closed
      cases closed
    · rw [writable] at errored
      cases errored
  exact {
    serves := books.serves
    once := books.deferreds.once
    shared := books.promises
    settled := by
      intro ended id below
      apply books.deferreds.all _ below
      rw [owing_of_ended ended, books.stopped (notWritable ended), books.finished ended]
      rfl
    closed := by
      intro ended writer _ pending
      have settled := books.closed (notWritable ended)
      rw [pending.1] at settled
      cases settled
    ready := by
      intro ended source listed pending
      rcases books.readies source.2 (books.sources source listed) with settled | ⟨_, _, writable⟩
      · exact pending.1 settled
      · exact notWritable ended writable }

section Runs

variable {hasSize : Bool} {highWaterMark : ℚ} {events : List (WritableEvent Chunk Reason)}

def writesAndCloses : List (WritableEvent ℕ ℕ) :=
  [.startReturned, .getWriter, .readReady 0, .write 0 10, .startResolved, .startAwaited,
    .write 0 11,
    .readReady 0, .closeFromWriter 0, .sinkReturned, .sinkResolved, .sinkReturned, .sinkResolved,
    .sinkReturned, .sinkResolved]

def closesWithoutRoom : List (WritableEvent ℕ ℕ) :=
  [.startReturned, .getWriter, .closeFromWriter 0, .startResolved, .startAwaited, .sinkReturned,
    .sinkResolved]

end Runs

end RuntimeWritableStream

end Holonomy.Streams
