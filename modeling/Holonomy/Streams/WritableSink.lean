import Holonomy.Foundation.Obligations
import Holonomy.Streams.WebWritable

/-!
# What a sink sees

A sink is to see the accepted chunks one at a time and in order, then the close or the abort, and
nothing more. The books of a stream say what its promises and its sink wait for.
-/

namespace Holonomy.Streams

open Foundation

variable {Chunk Reason : Type}

/-- How far a sink is. -/
structure SinkView (Chunk : Type) where
  /-- The chunks that were accepted and not handed over. -/
  waiting : List Chunk
  inFlight : Option (SinkCall Chunk)
  /-- Whether the sink was closed or aborted, or the stream has taken an error. -/
  ended : Bool
  broken : Bool

/-- A sink that has seen nothing. -/
def SinkView.new : SinkView Chunk := ⟨[], none, false, false⟩

/-- How far a sink is after one more event. -/
def SinkView.next (view : SinkView Chunk) : SinkEvent Chunk → SinkView Chunk
  | .accepted chunk => { view with waiting := view.waiting ++ [chunk] }
  | .called (.write chunk) =>
    { view with waiting := view.waiting.tail, inFlight := some (.write chunk) }
  | .called .close => { view with inFlight := some .close, ended := true }
  | .called .abort => { view with inFlight := some .abort, ended := true }
  | .finished succeeded =>
    { view with inFlight := none, broken := view.broken || !succeeded }
  | .errored => { view with ended := true }

/-- How far a sink is after some events. -/
def viewOf (trace : List (SinkEvent Chunk)) : SinkView Chunk := trace.foldl SinkView.next .new

theorem viewOf_append (trace : List (SinkEvent Chunk)) (event : SinkEvent Chunk) :
    viewOf (trace ++ [event]) = (viewOf trace).next event := by
  unfold viewOf
  rw [List.foldl_append]
  rfl

/-- The sink is used as it should be. -/
inductive Serves : List (SinkEvent Chunk) → Prop where
  | unused : Serves []
  | accepted {trace : List (SinkEvent Chunk)} (chunk : Chunk) (before : Serves trace)
      (going : (viewOf trace).ended = false) : Serves (trace ++ [.accepted chunk])
  | write {trace : List (SinkEvent Chunk)} {chunk : Chunk} {waiting : List Chunk}
      (before : Serves trace) (free : (viewOf trace).inFlight = none)
      (going : (viewOf trace).ended = false) (whole : (viewOf trace).broken = false)
      (first : (viewOf trace).waiting = chunk :: waiting) :
      Serves (trace ++ [.called (.write chunk)])
  | close {trace : List (SinkEvent Chunk)} (before : Serves trace)
      (free : (viewOf trace).inFlight = none) (going : (viewOf trace).ended = false)
      (whole : (viewOf trace).broken = false) (none : (viewOf trace).waiting = []) :
      Serves (trace ++ [.called .close])
  | abort {trace : List (SinkEvent Chunk)} (before : Serves trace)
      (free : (viewOf trace).inFlight = none) (going : (viewOf trace).ended = false) :
      Serves (trace ++ [.called .abort])
  | finished {trace : List (SinkEvent Chunk)} {call : SinkCall Chunk} (succeeded : Bool)
      (before : Serves trace) (flying : (viewOf trace).inFlight = some call) :
      Serves (trace ++ [.finished succeeded])
  | errored {trace : List (SinkEvent Chunk)} (before : Serves trace) : Serves (trace ++ [.errored])

def WritableRecord.closes (record : WritableRecord Chunk) : Bool :=
  match record.kind with
  | .close => true
  | .write _ => false

def WritableRecord.chunk (record : WritableRecord Chunk) : Option Chunk :=
  match record.kind with
  | .close => none
  | .write chunk => some chunk

/-- Whether the loop is in the middle of a step. -/
def AdvancePosition.isRunning : AdvancePosition Chunk → Bool
  | .running => true
  | _ => false

variable {position : AdvancePosition Chunk}

theorem AdvancePosition.record_of_isIdle (idle : position.isIdle) : position.record = none := by
  cases position with
  | sink record => cases idle
  | _ => rfl

theorem AdvancePosition.record_of_isRunning
    (running : position.isRunning) : position.record = none := by
  cases position with
  | sink record => cases running
  | _ => rfl

theorem AdvancePosition.isRunning_of_isIdle
    (idle : position.isIdle) : position.isRunning = false := by
  cases position with
  | running => cases idle
  | _ => rfl

theorem AdvancePosition.isIdle_of_isRunning
    (running : position.isRunning) : position.isIdle = false := by
  cases position with
  | idle => cases running
  | _ => rfl

/-- Whether an activation waits for `abort`. -/
def WritableFrame.isAbort : WritableFrame Chunk → Bool
  | .abort => true
  | _ => false

namespace RuntimeWritableStream

variable {stream : RuntimeWritableStream Chunk Reason}

def constructing (stream : RuntimeWritableStream Chunk Reason) : Bool :=
  stream.frames.any WritableFrame.isStart

def inFlight (stream : RuntimeWritableStream Chunk Reason) : Option (SinkCall Chunk) :=
  match stream.position with
  | .sink record => some record.call
  | _ => if stream.state = .aborting ∧ stream.abortStarted then some .abort else none

theorem inFlight_of_writable (writable : stream.state = .writable)
    (quiet : stream.position.record = none) : stream.inFlight = none := by
  unfold inFlight
  cases place : stream.position with
  | sink record =>
    rw [place] at quiet
    cases quiet
  | _ => simp [writable]

def terminal (stream : RuntimeWritableStream Chunk Reason) : List ℕ :=
  match stream.state with
  | .aborting => stream.abortDeferred.toList
  | .erroring => stream.errorDeferred.toList
  | _ => []

/-- The deferreds that will be settled. -/
def owing (stream : RuntimeWritableStream Chunk Reason) : List ℕ :=
  stream.queue.map WritableRecord.deferred ++
    (stream.position.record.map WritableRecord.deferred).toList ++ stream.terminal

/-- What a stream owes and to whom. -/
structure Books (stream : RuntimeWritableStream Chunk Reason) : Prop where
  advancing : stream.advancing = !stream.position.isIdle
  active : stream.position.isRunning = false → stream.activeRecord = stream.position.record
  idle : stream.position.isIdle → stream.queue = []
  stopped : stream.state ≠ .writable → stream.queue = []
  finished : stream.state = .closed ∨ stream.state = .errored → stream.position.record = none
  erroring : stream.state = .erroring →
    stream.errorDeferred.isSome ∧ stream.position.isIdle = false
  aborting : stream.state = .aborting →
    stream.abortDeferred.isSome ∧ stream.abortStarted = stream.position.isIdle
  promised : stream.state = .aborting → stream.abortPromise.isSome
  promises : ∀ id, stream.abortPromise = some id ∨ stream.errorDeferred = some id →
    id < stream.deferreds
  aborts : stream.frames.countP WritableFrame.isAbort + stream.abortAwaited.toNat ≤
    if stream.state = .aborting ∧ stream.abortStarted then 1 else 0
  fresh : stream.state = .writable → stream.errorDeferred = none ∧ stream.abortStarted = false
  closing : ∀ record, stream.position.record = some record → record.closes →
    stream.queue = [] ∧ stream.state ≠ .aborting
  last : ∀ record ∈ stream.queue.dropLast, record.closes = false
  requested : stream.closeRequested = false → (∀ record ∈ stream.queue, record.closes = false) ∧
    ∀ record, stream.position.record = some record → record.closes = false
  sizes : ∀ record, record ∈ stream.queue ∨ stream.position.record = some record →
    0 ≤ record.size ∧ (record.closes → record.size = 0)
  total : stream.state = .writable → stream.queueTotalSize =
    (stream.queue.map WritableRecord.size).sum +
      (stream.position.record.map WritableRecord.size).getD 0
  readies : ∀ id ≤ stream.ready, id ∈ stream.readySettled ∨
    (id = stream.ready ∧ stream.backpressure ∧ stream.state = .writable)
  sources : ∀ source ∈ stream.readySources, source.2 ≤ stream.ready
  closed : stream.state ≠ .writable → stream.closeSettled
  deferreds : Owed (stream.settlements.map Prod.fst) stream.owing stream.deferreds
  serves : Serves stream.trace
  flying : (viewOf stream.trace).inFlight = stream.inFlight
  willAbort : stream.state = .aborting → stream.abortStarted = false →
    (viewOf stream.trace).ended = false

def Pressed (stream : RuntimeWritableStream Chunk Reason) : Prop :=
  stream.state = .writable → stream.constructing = false →
    stream.backpressure = decide (stream.highWaterMark - stream.queueTotalSize ≤ 0)

def Opened (stream : RuntimeWritableStream Chunk Reason) : Prop :=
  stream.state = .writable →
    (∃ record, stream.position.record = some record ∧ record.closes) ∨
      ((viewOf stream.trace).ended = false ∧ (viewOf stream.trace).broken = false ∧
        (viewOf stream.trace).waiting = stream.queue.filterMap WritableRecord.chunk)

/-- A stream between two steps. -/
structure Steady (stream : RuntimeWritableStream Chunk Reason) : Prop where
  books : Books stream
  pressed : Pressed stream
  opened : Opened stream
  resting : stream.position.isRunning = false

section Owing

theorem owing_of_writable (writable : stream.state = .writable) : stream.owing =
    stream.queue.map WritableRecord.deferred ++
      (stream.position.record.map WritableRecord.deferred).toList := by
  unfold owing terminal
  rw [writable]
  exact List.append_nil _

theorem owing_of_aborting (aborting : stream.state = .aborting) : stream.owing =
    stream.queue.map WritableRecord.deferred ++
      (stream.position.record.map WritableRecord.deferred).toList ++
        stream.abortDeferred.toList := by
  unfold owing terminal
  rw [aborting]

theorem owing_of_erroring (erroring : stream.state = .erroring) : stream.owing =
    stream.queue.map WritableRecord.deferred ++
      (stream.position.record.map WritableRecord.deferred).toList ++
        stream.errorDeferred.toList := by
  unfold owing terminal
  rw [erroring]

theorem owing_of_ended (ended : stream.state = .closed ∨ stream.state = .errored) :
    stream.owing = stream.queue.map WritableRecord.deferred ++
      (stream.position.record.map WritableRecord.deferred).toList := by
  unfold owing terminal
  rcases ended with closed | errored
  · rw [closed]
    exact List.append_nil _
  · rw [errored]
    exact List.append_nil _

end Owing

theorem exists_rejectReady (stream : RuntimeWritableStream Chunk Reason) :
    ∃ ready readySettled, stream.rejectReady = { stream with ready, readySettled } ∧
      stream.ready ≤ ready ∧ ((∀ id ≤ stream.ready, id ∈ stream.readySettled ∨
        (id = stream.ready ∧ stream.backpressure)) → ∀ id ≤ ready, id ∈ readySettled) := by
  unfold rejectReady
  by_cases pressed : stream.backpressure = true
  · rw [if_pos pressed]
    refine ⟨stream.ready, stream.readySettled ++ [stream.ready], rfl, le_rfl, ?_⟩
    intro before id below
    rcases before id below with settled | ⟨last, _⟩
    · exact List.mem_append_left _ settled
    · rw [last]
      exact List.mem_append_right _ (List.mem_singleton.mpr rfl)
  · rw [if_neg pressed]
    refine ⟨stream.ready + 1, stream.readySettled ++ [stream.ready + 1], rfl, Nat.le_succ _, ?_⟩
    intro before id below
    by_cases last : id = stream.ready + 1
    · rw [last]
      exact List.mem_append_right _ (List.mem_singleton.mpr rfl)
    · rcases before id (by omega) with settled | ⟨_, full⟩
      · exact List.mem_append_left _ settled
      · exact absurd full pressed

namespace Books

theorem new {hasSize : Bool} {highWaterMark : ℚ} :
    Books (new hasSize highWaterMark : RuntimeWritableStream Chunk Reason) where
  advancing := rfl
  active := fun _ => rfl
  idle := fun _ => rfl
  stopped := fun _ => rfl
  finished := fun _ => rfl
  erroring := fun erroring => by cases erroring
  aborting := fun aborting => by cases aborting
  promised := fun aborting => by cases aborting
  promises := by simp [RuntimeWritableStream.new]
  aborts := Nat.zero_le _
  fresh := fun _ => ⟨rfl, rfl⟩
  closing := fun _ none => by cases none
  last := fun _ listed => by cases listed
  requested := by simp [RuntimeWritableStream.new, AdvancePosition.record]
  sizes := by simp [RuntimeWritableStream.new, AdvancePosition.record]
  total := by simp [RuntimeWritableStream.new, AdvancePosition.record]
  readies := by
    intro id below
    exact .inl (List.mem_singleton.mpr (Nat.le_zero.mp below))
  sources := fun _ listed => by cases listed
  closed := fun ended => absurd rfl ended
  deferreds := Owed.none
  serves := .unused
  flying := rfl
  willAbort := fun aborting => by cases aborting

theorem settleNow (books : Books stream) (settlement : Settlement Reason) :
    Books (stream.settleNow settlement) :=
  { books with
    promises := fun id shared => Nat.lt_succ_of_lt (books.promises id shared)
    deferreds := by
      apply books.deferreds.arise
      intro id
      have same : (stream.settleNow settlement).owing = stream.owing := rfl
      rw [same]
      simp only [RuntimeWritableStream.settleNow, List.map_append, List.map_cons, List.map_nil,
        List.count_append]
      omega }

theorem sizes_quiet (books : Books stream) (record : WritableRecord Chunk)
    (among : record ∈ stream.queue ∨ none = some record) :
    0 ≤ record.size ∧ (record.closes → record.size = 0) := by
  rcases among with listed | none
  · exact books.sizes record (.inl listed)
  · cases none

theorem exists_startError (books : Books stream) (writable : stream.state = .writable)
    (error : Failure Reason) : ∃ ready readySettled, stream.startError error = { stream with
      errorDeferred := some stream.deferreds
      deferreds := stream.deferreds + 1
      state := .erroring
      storedError := some error
      queueTotalSize := (stream.activeRecord.map WritableRecord.size).getD 0
      closeSettled := true
      trace := stream.trace ++ [SinkEvent.errored]
      queue := []
      settlements := stream.settlements ++
        stream.queue.map fun record => (record.deferred, .rejected (some error))
      ready
      readySettled } ∧ stream.ready ≤ ready ∧ ∀ id ≤ ready, id ∈ readySettled := by
  have made : stream.withErrorDeferred = { stream with
      errorDeferred := some stream.deferreds
      deferreds := stream.deferreds + 1 } := by
    unfold withErrorDeferred
    rw [(books.fresh writable).1]
  unfold startError
  rw [made]
  obtain ⟨ready, readySettled, same, more, settled⟩ := exists_rejectReady
    (({ stream with
      errorDeferred := some stream.deferreds
      deferreds := stream.deferreds + 1
      state := .erroring
      storedError := some error
      queueTotalSize := (stream.activeRecord.map WritableRecord.size).getD 0
      closeSettled := true
      trace := stream.trace ++ [SinkEvent.errored] } :
        RuntimeWritableStream Chunk Reason).rejectQueue error)
  refine ⟨ready, readySettled, same, more, ?_⟩
  exact settled fun id below => (books.readies id below).imp_right fun last => ⟨last.1, last.2.1⟩

theorem map_rejected (queue : List (WritableRecord Chunk)) (error : Failure Reason) :
    (queue.map fun record =>
      ((record.deferred, .rejected (some error)) : ℕ × Settlement Reason)).map Prod.fst =
        queue.map WritableRecord.deferred := by
  simp [List.map_map, Function.comp_def]

section

variable (books : Books stream)

include books

theorem startError (writable : stream.state = .writable)
    (runs : stream.position.isIdle = false) (error : Failure Reason) :
    Books (stream.startError error) := by
  obtain ⟨ready, readySettled, same, more, settled⟩ := books.exists_startError writable error
  rw [same]
  exact {
    advancing := books.advancing
    active := books.active
    idle := fun _ => rfl
    stopped := fun _ => rfl
    finished := by simp
    erroring := fun _ => ⟨rfl, runs⟩
    aborting := by simp
    promised := by simp
    promises := fun id shared => by
      rcases shared with abort | error
      · exact Nat.lt_succ_of_lt (books.promises id (.inl abort))
      · have same : stream.deferreds = id := Option.some.inj error
        exact same ▸ Nat.lt_succ_self _
    aborts := by
      have none := books.aborts
      simp only [writable, reduceCtorEq, false_and, if_false] at none ⊢
      exact none
    fresh := by simp
    closing := by simp
    last := by simp
    requested := fun none => ⟨by simp, (books.requested none).2⟩
    sizes := fun record among => by
      rcases among with listed | serving
      · cases listed
      · exact books.sizes record (.inr serving)
    total := by simp
    readies := fun id below => .inl (settled id below)
    sources := fun source listed => (books.sources source listed).trans more
    closed := fun _ => rfl
    deferreds := by
      apply books.deferreds.arise
      intro id
      rw [owing_of_writable writable, owing_of_erroring rfl]
      simp only [List.map_append, map_rejected, List.count_append, List.map_nil, List.count_nil,
        Option.toList_some]
      omega
    serves := books.serves.errored
    flying := by
      have flying := books.flying
      rw [viewOf_append]
      simp only [SinkView.next]
      rw [flying]
      unfold inFlight
      cases stream.position <;> simp [writable]
    willAbort := by simp }

/-- A stream whose loop does not run takes an error at once. -/
theorem startErrorIdle (writable : stream.state = .writable)
    (idle : stream.position.isIdle) (error : Failure Reason) :
    Books (stream.startError error).finishError := by
  obtain ⟨ready, readySettled, same, more, settled⟩ := books.exists_startError writable error
  have quiet := AdvancePosition.record_of_isIdle idle
  rw [same]
  unfold finishError
  rw [if_neg (not_not.mpr rfl)]
  exact {
    advancing := books.advancing
    active := books.active
    idle := fun _ => rfl
    stopped := fun _ => rfl
    finished := fun _ => quiet
    erroring := by simp
    aborting := by simp
    promised := by simp
    promises := fun id shared => by
      rcases shared with abort | error
      · exact Nat.lt_succ_of_lt (books.promises id (.inl abort))
      · have same : stream.deferreds = id := Option.some.inj error
        exact same ▸ Nat.lt_succ_self _
    aborts := by
      have none := books.aborts
      simp only [writable, reduceCtorEq, false_and, if_false] at none ⊢
      exact none
    fresh := by simp
    closing := by simp
    last := by simp
    requested := fun none => ⟨by simp, (books.requested none).2⟩
    sizes := fun record among => by
      rcases among with listed | serving
      · cases listed
      · exact books.sizes record (.inr serving)
    total := by simp
    readies := fun id below => .inl (settled id below)
    sources := fun source listed => (books.sources source listed).trans more
    closed := fun _ => rfl
    deferreds := by
      apply books.deferreds.arise
      intro id
      rw [owing_of_writable writable, owing_of_ended (.inr rfl)]
      simp only [List.map_append, map_rejected, List.count_append, List.map_nil, List.count_nil,
        Option.toList_some, List.map_cons]
      omega
    serves := books.serves.errored
    flying := by
      have flying := books.flying
      rw [viewOf_append]
      simp only [SinkView.next]
      rw [flying]
      unfold inFlight
      cases stream.position <;> simp [writable]
    willAbort := by simp }

theorem errorInternal (reason : Option (Failure Reason)) : Books (stream.errorInternal reason) := by
  unfold RuntimeWritableStream.errorInternal
  by_cases writable : stream.state = .writable
  · rw [if_neg (not_not.mpr writable)]
    have flag := books.advancing
    by_cases runs : stream.advancing = true
    · rw [if_pos runs]
      apply books.startError writable
      rw [runs] at flag
      simpa using flag.symm
    · rw [if_neg runs]
      apply books.startErrorIdle writable
      rw [Bool.not_eq_true] at runs
      rw [runs] at flag
      simpa using flag.symm
  · rw [if_pos writable]
    exact books

theorem served {record : WritableRecord Chunk}
    (serving : stream.position = .sink record) (active : Option (WritableRecord Chunk)) (total : ℚ)
    (fits : stream.state = .writable → total = (stream.queue.map WritableRecord.size).sum)
    (succeeded : Bool) (settlement : Settlement Reason) :
    Books ({ stream with activeRecord := active, queueTotalSize := total }.served record succeeded
      settlement) := by
  have isServed : stream.position.record = some record := by rw [serving]; rfl
  have runs : stream.position.isIdle = false := by rw [serving]; rfl
  exact {
    advancing := by
      have flag := books.advancing
      rw [runs] at flag
      exact flag
    active := by simp [RuntimeWritableStream.served, AdvancePosition.isRunning]
    idle := by simp [RuntimeWritableStream.served, AdvancePosition.isIdle]
    stopped := books.stopped
    finished := fun _ => rfl
    erroring := fun erroring => ⟨(books.erroring erroring).1, rfl⟩
    aborting := fun aborting => by
      have before := books.aborting aborting
      rw [runs] at before
      exact before
    promised := books.promised
    promises := books.promises
    aborts := books.aborts
    fresh := books.fresh
    closing := by simp [RuntimeWritableStream.served, AdvancePosition.record]
    last := books.last
    requested := fun none =>
      ⟨(books.requested none).1, by simp [RuntimeWritableStream.served, AdvancePosition.record]⟩
    sizes := books.sizes_quiet
    total := fun writable => by
      simp only [RuntimeWritableStream.served, AdvancePosition.record, Option.map_none,
        Option.getD_none, add_zero]
      exact fits writable
    readies := books.readies
    sources := books.sources
    closed := books.closed
    deferreds := by
      apply books.deferreds.moved
      intro id
      have same : ({ stream with activeRecord := active, queueTotalSize := total }.served record
          succeeded settlement).terminal = stream.terminal := rfl
      unfold owing
      rw [isServed, same]
      simp only [RuntimeWritableStream.served, AdvancePosition.record, List.map_append,
        List.count_append, List.map_cons, List.map_nil, Option.map_none, Option.map_some,
        Option.toList_none, Option.toList_some, List.count_nil]
      omega
    serves := by
      have flying := books.flying
      unfold inFlight at flying
      rw [serving] at flying
      exact books.serves.finished succeeded flying
    flying := by
      simp only [RuntimeWritableStream.served, viewOf_append, SinkView.next]
      unfold inFlight
      by_cases aborting : stream.state = .aborting
      · have before := (books.aborting aborting).2
        rw [runs] at before
        simp [before]
      · simp [aborting]
    willAbort := fun aborting quiet => by
      have before := books.willAbort aborting quiet
      simp only [RuntimeWritableStream.served, viewOf_append, SinkView.next]
      exact before }

theorem close (writable : stream.state = .writable)
    (empty : stream.queue = []) (running : stream.position.isRunning)
    (ready : stream.backpressure = false) :
    Books { stream with state := .closed, closeSettled := true } := by
  have quiet := AdvancePosition.record_of_isRunning running
  exact { books with
    stopped := fun _ => empty
    finished := fun _ => quiet
    erroring := by simp
    aborting := by simp
    promised := by simp
    aborts := by
      have none := books.aborts
      simp only [writable, reduceCtorEq, false_and, if_false] at none ⊢
      exact none
    fresh := by simp
    closing := fun record serving => by
      rw [quiet] at serving
      cases serving
    total := by simp
    readies := by
      intro id below
      rcases books.readies id below with done | ⟨_, pressed, _⟩
      · exact .inl done
      · rw [ready] at pressed
        cases pressed
    closed := fun _ => rfl
    deferreds := by
      apply books.deferreds.moved
      intro id
      rw [owing_of_writable writable, owing_of_ended (.inl rfl)]
    flying := by
      have flying := books.flying
      rw [flying]
      unfold inFlight
      cases stream.position <;> simp [writable]
    willAbort := by simp }

theorem updateBackpressure : Books stream.updateBackpressure := by
  unfold RuntimeWritableStream.updateBackpressure
  by_cases writable : stream.state = .writable
  · rw [if_neg (not_not.mpr writable)]
    dsimp only
    split
    · exact books
    · rename_i changes
      split
      · rename_i presses
        have before : stream.backpressure = false := by
          rw [presses] at changes
          cases pressed : stream.backpressure with
          | false => rfl
          | true => exact absurd pressed.symm changes
        exact { books with
          readies := by
            intro id below
            by_cases last : id = stream.ready + 1
            · exact .inr ⟨last, rfl, writable⟩
            · have earlier : id ≤ stream.ready := by
                change id ≤ stream.ready + 1 at below
                omega
              rcases books.readies id earlier with done | ⟨_, pressed, _⟩
              · exact .inl done
              · rw [before] at pressed
                cases pressed
          sources := fun source listed => (books.sources source listed).trans (Nat.le_succ _) }
      · exact { books with
          readies := by
            intro id below
            rcases books.readies id below with done | ⟨last, _⟩
            · exact .inl (List.mem_append_left _ done)
            · exact .inl (List.mem_append_right _ (List.mem_singleton.mpr last)) }
  · rw [if_pos writable]
    exact books

theorem running (writable : stream.state = .writable) :
    ∃ position, (if stream.advancing then stream.position else .awaitingStart) = position ∧
      Books { stream with advancing := true, position } ∧ position.isIdle = false ∧
        ∀ record, position.record = some record → stream.position.record = some record := by
  have flag := books.advancing
  cases runs : stream.advancing with
  | true =>
    rw [runs] at flag
    refine ⟨stream.position, rfl, ?_, by simpa using flag.symm, fun _ => id⟩
    rw [← runs]
    exact books
  | false =>
    rw [runs] at flag
    have idle : stream.position.isIdle = true := by simpa using flag.symm
    have quiet := AdvancePosition.record_of_isIdle idle
    have free := inFlight_of_writable writable quiet
    refine ⟨.awaitingStart, rfl, ?_, rfl, fun _ none => by cases none⟩
    exact { books with
      advancing := rfl
      active := fun _ => (books.active (AdvancePosition.isRunning_of_isIdle idle)).trans quiet
      idle := fun _ => books.idle idle
      finished := fun _ => rfl
      erroring := fun erroring => ⟨(books.erroring erroring).1, rfl⟩
      aborting := fun aborting =>
        absurd (writable.symm.trans aborting) WritableState.noConfusion
      closing := fun record none => by cases none
      requested := fun unasked => ⟨(books.requested unasked).1, fun record none => by cases none⟩
      sizes := books.sizes_quiet
      total := fun writable => by
        have total := books.total writable
        rw [quiet] at total
        exact total
      deferreds := by
        apply books.deferreds.moved
        intro id
        unfold owing
        rw [quiet]
        rfl
      flying := by
        rw [books.flying, free, inFlight_of_writable (by exact writable) rfl] }

end

theorem advanceQueue_eq (stream : RuntimeWritableStream Chunk Reason) :
    stream.advanceQueue = { stream with
      advancing := true
      position := if stream.advancing then stream.position else .awaitingStart } := by
  unfold RuntimeWritableStream.advanceQueue
  split
  · next runs => rw [← runs]
  · rfl

/-- Nothing more is written because of an abort. -/
theorem startAbort (books : Books stream) (writable : stream.state = .writable)
    (notClosing : ∀ record, stream.position.record = some record → record.closes = false)
    (going : (∃ record, stream.position.record = some record ∧ record.closes) ∨
      (viewOf stream.trace).ended = false) (reason : Option (Failure Reason)) :
    Books (stream.startAbort reason) := by
  have notEnded : (viewOf stream.trace).ended = false := by
    rcases going with ⟨record, serving, closes⟩ | going
    · rw [notClosing record serving] at closes
      cases closes
    · exact going
  have noAbort := (books.fresh writable).2
  unfold RuntimeWritableStream.startAbort
  obtain ⟨ready, readySettled, same, more, settled⟩ := exists_rejectReady
    (({ stream with
      state := .aborting
      storedError := some (toWebStreamError reason)
      abortReason := reason
      closeRequested := true
      abortDeferred := some stream.deferreds
      abortPromise := some stream.deferreds
      deferreds := stream.deferreds + 1
      queueTotalSize := (stream.activeRecord.map WritableRecord.size).getD 0
      closeSettled := true } : RuntimeWritableStream Chunk Reason).rejectQueue
        (toWebStreamError reason))
  have allSettled : ∀ id ≤ ready, id ∈ readySettled :=
    settled fun id below => (books.readies id below).imp_right fun last => ⟨last.1, last.2.1⟩
  have aborts := books.aborts
  simp only [writable, reduceCtorEq, false_and, if_false] at aborts
  obtain ⟨position, place, books, notIdle, older⟩ := books.running writable
  rw [same, advanceQueue_eq]
  unfold rejectQueue
  dsimp only
  rw [place]
  exact {
    advancing := books.advancing
    active := books.active
    idle := fun _ => rfl
    stopped := fun _ => rfl
    finished := by simp
    erroring := by simp
    aborting := fun _ => ⟨rfl, by rw [noAbort, notIdle]⟩
    promised := fun _ => rfl
    promises := fun id shared => by
      rcases shared with abort | error
      · have same : stream.deferreds = id := Option.some.inj abort
        exact same ▸ Nat.lt_succ_self _
      · exact Nat.lt_succ_of_lt (books.promises id (.inr error))
    aborts := aborts.trans (Nat.zero_le _)
    fresh := by simp
    closing := fun record serving closes => by
      rw [notClosing record (older record serving)] at closes
      cases closes
    last := by simp
    requested := by simp
    sizes := fun record among => by
      rcases among with listed | serving
      · cases listed
      · exact books.sizes record (.inr serving)
    total := by simp
    readies := fun id below => .inl (allSettled id below)
    sources := fun source listed => (books.sources source listed).trans more
    closed := fun _ => rfl
    deferreds := by
      apply books.deferreds.arise
      intro id
      rw [owing_of_aborting (by rfl), owing_of_writable (by exact writable)]
      simp only [List.map_append, map_rejected, List.count_append, List.map_nil, List.count_nil,
        Option.toList_some]
      omega
    serves := books.serves
    flying := by
      rw [books.flying]
      unfold inFlight
      cases position <;> simp [writable, noAbort]
    willAbort := fun _ _ => notEnded }

/-- A record may be put into the queue. -/
theorem push (books : Books stream) (writable : stream.state = .writable)
    (going : stream.closeRequested = false) (kind : RecordKind Chunk) {size total : ℚ}
    {requested : Bool} (fits : total = stream.queueTotalSize + size) (positive : 0 ≤ size)
    (small : kind = .close → size = 0) (asked : requested = false → kind ≠ .close)
    {trace : List (SinkEvent Chunk)} (serves : Serves trace)
    (flying : (viewOf trace).inFlight = (viewOf stream.trace).inFlight) :
    Books ({ stream.push kind size with
      closeRequested := requested
      queueTotalSize := total
      trace }.advanceQueue) := by
  obtain ⟨position, place, books, notIdle, -⟩ := books.running writable
  obtain ⟨noCloses, notClosing⟩ := books.requested going
  have closes : ∀ record : WritableRecord Chunk, record.kind = kind → record.closes →
      kind = .close := by
    intro record same closes
    rw [← same]
    unfold WritableRecord.closes at closes
    split at closes
    · assumption
    · cases closes
  have lastCloses : ∀ record ∈ (stream.queue ++
      [(⟨kind, stream.deferreds, size⟩ : WritableRecord Chunk)]).dropLast,
        record.closes = false := by
    rw [List.dropLast_concat]
    exact noCloses
  have requestedCloses : requested = false → ∀ record ∈ stream.queue ++
      [(⟨kind, stream.deferreds, size⟩ : WritableRecord Chunk)], record.closes = false := by
    intro unasked record listed
    rcases List.mem_append.mp listed with before | new
    · exact noCloses record before
    · rw [List.mem_singleton.mp new, ← Bool.not_eq_true]
      exact fun closing => asked unasked (closes _ rfl closing)
  have sizes : ∀ record ∈ stream.queue ++
      [(⟨kind, stream.deferreds, size⟩ : WritableRecord Chunk)],
        0 ≤ record.size ∧ (record.closes → record.size = 0) := by
    exact forall_mem_concat (fun record before => books.sizes record (.inl before))
      ⟨positive, fun closing => small (closes _ rfl closing)⟩
  rw [advanceQueue_eq]
  unfold RuntimeWritableStream.push
  dsimp only
  rw [place]
  exact {
    advancing := books.advancing
    active := books.active
    idle := fun idle => by
      change position.isIdle = true at idle
      rw [notIdle] at idle
      cases idle
    stopped := fun stopped => absurd writable stopped
    finished := fun ended => by
      dsimp only at ended
      rw [writable] at ended
      rcases ended with ended | ended <;> cases ended
    erroring := books.erroring
    aborting := books.aborting
    promised := books.promised
    promises := fun id shared => Nat.lt_succ_of_lt (books.promises id shared)
    aborts := books.aborts
    fresh := books.fresh
    closing := fun record serving closing => by
      rw [notClosing record serving] at closing
      cases closing
    last := lastCloses
    requested := fun unasked => ⟨requestedCloses unasked, notClosing⟩
    sizes := fun record among => by
      rcases among with listed | serving
      · exact sizes record listed
      · exact books.sizes record (.inr serving)
    total := fun _ => by
      rw [fits, books.total writable, List.map_append, List.sum_append]
      simp only [List.map_cons, List.map_nil, List.sum_cons, List.sum_nil, add_zero]
      ring
    readies := books.readies
    sources := books.sources
    closed := books.closed
    deferreds := by
      apply books.deferreds.arise
      intro id
      rw [owing_of_writable (by exact writable), owing_of_writable (by exact writable)]
      simp only [List.map_append, List.count_append, List.map_cons, List.map_nil]
      omega
    serves := serves
    flying := flying.trans books.flying
    willAbort := fun aborting =>
      absurd (writable.symm.trans aborting) WritableState.noConfusion }

end Books

end RuntimeWritableStream

end Holonomy.Streams
