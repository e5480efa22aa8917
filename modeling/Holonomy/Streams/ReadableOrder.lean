import Holonomy.Foundation.Turns
import Holonomy.Streams.WebReadable

/-!
# What readers get

Every read of a stream gets the next chunk, in the order the reads are made. Their promises settle
in that order too, apart from the reads that are made inside `pull` while a read that called it
holds the chunk it took.
-/

namespace Holonomy.Streams

open Foundation

variable {Chunk Reason : Type}

def Continuation.reads : Continuation Chunk → List (ℕ × Chunk)
  | .none => []
  | .resolveRead read chunk => [(read, chunk)]

/-- The read that an activation holds. -/
def Frame.reads : Frame Chunk → List (ℕ × Chunk)
  | .pull next => next.reads
  | _ => []

namespace RuntimeReadableStream

variable {stream : RuntimeReadableStream Chunk Reason}

theorem held_eq (stream : RuntimeReadableStream Chunk Reason) :
    stream.held = stream.frames.flatMap Frame.reads := by
  unfold held
  induction stream.frames with
  | nil => rfl
  | cons frame frames ih =>
    rw [List.flatMap_cons, ← ih]
    cases frame with
    | start => rfl
    | cancel => rfl
    | pull next => cases next <;> rfl

structure Accounted (stream : RuntimeReadableStream Chunk Reason) (inHand : List (ℕ × Chunk)) :
    Prop where
  turn : InTurn stream.reads stream.readRequests ((inHand ++ stream.held).map Prod.fst)
    (stream.settled.map Prod.fst) stream.nested
  total : stream.queueTotalSize = (stream.queue.map QueuedChunk.size).sum
  sizes : ∀ queued ∈ stream.queue, 0 ≤ queued.size
  apart : stream.queue = [] ∨ stream.readRequests = []
  whole : stream.state ≠ .errored → ¬ stream.cancelled →
    stream.handed.map Prod.snd ++ stream.queue.map QueuedChunk.chunk = stream.enqueued
  chunks : stream.handed.map Prod.snd ++ stream.queue.map QueuedChunk.chunk <+: stream.enqueued
  handedOrder : stream.handed.Pairwise fun entry later => entry.1 < later.1
  handed : ∀ entry, entry ∈ stream.handed ↔
    (entry.1, .value entry.2) ∈ stream.settled ∨ entry ∈ inHand ++ stream.held
  dones : ∀ read, (read, .done) ∈ stream.settled → stream.state = .closed ∧
    ∀ entry ∈ stream.handed, entry.1 < read
  rejections : ∀ read error, (read, .rejected error) ∈ stream.settled → stream.state = .errored
  waiting : stream.readRequests ≠ [] → stream.state = .readable
  closed : stream.state = .closed → stream.closeRequested ∧ stream.queue = []
  errored : stream.state = .errored → stream.queue = []
  cancelled : stream.cancelled → stream.closeRequested

namespace Accounted

variable {inHand : List (ℕ × Chunk)}

theorem new {hasPull : Bool} {highWaterMark : ℚ} :
    Accounted (new hasPull highWaterMark : RuntimeReadableStream Chunk Reason) [] where
  turn := InTurn.none
  total := rfl
  sizes := by simp [RuntimeReadableStream.new]
  apart := .inl rfl
  whole := fun _ _ => rfl
  chunks := List.prefix_refl _
  handedOrder := .nil
  handed := by simp [RuntimeReadableStream.new, held]
  dones := by simp [RuntimeReadableStream.new]
  rejections := by simp [RuntimeReadableStream.new]
  waiting := by simp [RuntimeReadableStream.new]
  closed := by simp [RuntimeReadableStream.new]
  errored := by simp [RuntimeReadableStream.new]
  cancelled := by simp [RuntimeReadableStream.new]

theorem resume (next : Continuation Chunk) (accounted : Accounted stream next.reads) :
    Accounted (stream.resume next) [] := by
  cases next with
  | none => exact accounted
  | resolveRead read chunk =>
    have turn := accounted.turn.release
    exact { accounted with
      turn := by
        simp only [RuntimeReadableStream.resume, settle, List.map_append]
        exact turn
      handed := by
        intro entry
        have before := accounted.handed entry
        have pair : ((entry.1, .value entry.2) : ℕ × ReadResult Chunk Reason) =
            (read, .value chunk) ↔ entry = (read, chunk) := by
          simp [Prod.ext_iff]
        simp only [RuntimeReadableStream.resume, settle, List.mem_append, List.mem_singleton, pair]
        rw [before]
        simp only [Continuation.reads, List.mem_append, List.mem_singleton, List.not_mem_nil,
          false_or, or_assoc]
        rfl
      dones := by
        intro other among
        rcases List.mem_append.mp among with before | new
        · exact accounted.dones other before
        · simp at new
      rejections := by
        intro other error among
        rcases List.mem_append.mp among with before | new
        · exact accounted.rejections other error before
        · simp at new }

theorem callPullIfNeeded (next : Continuation Chunk) (accounted : Accounted stream next.reads) :
    Accounted (stream.callPullIfNeeded next) [] := by
  unfold RuntimeReadableStream.callPullIfNeeded
  split
  · exact accounted.resume next
  · split
    · have asked : Accounted { stream with pullAgain := true } next.reads := { accounted with }
      exact asked.resume next
    · split
      · exact accounted.resume next
      · have framed : ({ stream with
            pulling := true
            pulls := stream.pulls + 1
            frames := .pull next :: stream.frames } : RuntimeReadableStream Chunk Reason).held =
              next.reads ++ stream.held := by
          rw [held_eq, held_eq]
          rfl
        exact { accounted with
          turn := by
            rw [framed]
            exact accounted.turn
          handed := by
            rw [framed]
            exact accounted.handed }

section

variable (accounted : Accounted stream inHand)

include accounted

theorem emptied :
    stream.handed.map Prod.snd ++ ([] : List (QueuedChunk Chunk)).map QueuedChunk.chunk <+:
      stream.enqueued := by
  rw [List.map_nil, List.append_nil]
  exact (List.prefix_append _ _).trans accounted.chunks

theorem lt_reads {entry : ℕ × Chunk} (given : entry ∈ stream.handed) : entry.1 < stream.reads := by
  apply (accounted.turn.covered entry.1).mpr
  rcases (accounted.handed entry).mp given with settled | held
  · exact .inl (List.mem_map_of_mem (f := Prod.fst) settled)
  · exact .inr (.inr (List.mem_map_of_mem held))

theorem lt_waiting {entry : ℕ × Chunk}
    (given : entry ∈ stream.handed) {read : ℕ} (waits : read ∈ stream.readRequests) :
    entry.1 < read := by
  rcases (accounted.handed entry).mp given with settled | held
  · have listed := List.mem_map_of_mem (f := Prod.fst) settled
    exact accounted.turn.settledBelow entry.1 listed read waits
  · exact accounted.turn.heldBelow entry.1 (List.mem_map_of_mem held) read waits

theorem not_done (readable : stream.state = .readable)
    {read : ℕ} : (read, .done) ∉ stream.settled := by
  intro among
  have ended := (accounted.dones read among).1
  rw [readable] at ended
  cases ended

theorem not_rejected (readable : stream.state = .readable)
    {read : ℕ} {error : Failure Reason} : (read, .rejected error) ∉ stream.settled := by
  intro among
  have failed := accounted.rejections read error among
  rw [readable] at failed
  cases failed

theorem turn_all (result : ReadResult Chunk Reason) :
    InTurn stream.reads [] ((inHand ++ stream.held).map Prod.fst)
      ((stream.settled ++ stream.readRequests.map (·, result)).map Prod.fst) stream.nested := by
  have ids : (stream.settled ++ stream.readRequests.map (·, result)).map Prod.fst =
      stream.settled.map Prod.fst ++ stream.readRequests := by
    simp [List.map_map, Function.comp_def]
  rw [ids]
  exact accounted.turn.serveAll

theorem handed_all {result : ReadResult Chunk Reason}
    (none : ∀ chunk, result ≠ .value chunk) (entry : ℕ × Chunk) : entry ∈ stream.handed ↔
      (entry.1, .value entry.2) ∈ stream.settled ++ stream.readRequests.map (·, result) ∨
        entry ∈ inHand ++ stream.held := by
  have notNow : (entry.1, ReadResult.value entry.2) ∉ stream.readRequests.map (·, result) := by
    intro among
    obtain ⟨_, _, same⟩ := List.mem_map.mp among
    exact none entry.2 (Prod.mk.inj same).2
  have same : (entry.1, ReadResult.value entry.2) ∈
      stream.settled ++ stream.readRequests.map (·, result) ↔
        (entry.1, .value entry.2) ∈ stream.settled := List.mem_append.trans (or_iff_left notNow)
  rw [same]
  exact accounted.handed entry

theorem finishClose (asked : stream.closeRequested)
    (empty : stream.queue = []) : Accounted stream.finishClose inHand := by
  unfold RuntimeReadableStream.finishClose
  by_cases readable : stream.state = .readable
  · rw [if_neg (not_not.mpr readable)]
    exact { accounted with
      turn := accounted.turn_all .done
      apart := .inr rfl
      whole := fun _ => accounted.whole (by simp [readable])
      handed := accounted.handed_all (by simp)
      dones := by
        intro read among
        refine ⟨rfl, ?_⟩
        intro entry given
        rcases List.mem_append.mp among with before | now
        · exact absurd before (accounted.not_done readable)
        · obtain ⟨waits, listed, same⟩ := List.mem_map.mp now
          have isRead : waits = read := (Prod.mk.inj same).1
          exact accounted.lt_waiting given (isRead ▸ listed)
      rejections := by
        intro read error among
        rcases List.mem_append.mp among with before | now
        · exact absurd before (accounted.not_rejected readable)
        · simp at now
      waiting := fun waits => absurd rfl waits
      closed := fun _ => ⟨asked, empty⟩
      errored := fun failed => by cases failed }
  · rw [if_pos readable]
    exact accounted

theorem controllerError (reason : Option (Failure Reason)) :
    Accounted (stream.controllerError reason) inHand := by
  unfold RuntimeReadableStream.controllerError
  by_cases readable : stream.state = .readable
  · rw [if_neg (not_not.mpr readable)]
    exact { accounted with
      turn := accounted.turn_all (.rejected (toWebStreamError reason))
      total := rfl
      sizes := fun _ listed => by cases listed
      apart := .inl rfl
      whole := fun intact => absurd rfl intact
      chunks := accounted.emptied
      handed := accounted.handed_all (by simp)
      dones := by
        intro read among
        rcases List.mem_append.mp among with before | now
        · exact absurd before (accounted.not_done readable)
        · simp at now
      rejections := fun _ _ _ => rfl
      waiting := fun waits => absurd rfl waits
      closed := fun ended => by cases ended
      errored := fun _ => rfl }
  · rw [if_pos readable]
    exact accounted

theorem controllerClose : Accounted stream.controllerClose inHand := by
  unfold RuntimeReadableStream.controllerClose
  by_cases refused : stream.state ≠ .readable ∨ stream.closeRequested
  · rw [if_pos refused]
    exact accounted
  · have readable : stream.state = .readable := not_not.mp (not_or.mp refused).1
    have asked : Accounted { stream with closeRequested := true } inHand := { accounted with
      closed := fun ended => by
        rw [readable] at ended
        cases ended
      cancelled := fun _ => rfl }
    rw [if_neg refused]
    by_cases empty : stream.queue = []
    · rw [if_pos empty]
      exact asked.finishClose rfl empty
    · rw [if_neg empty]
      exact asked

theorem cancelInternal (hasCancel : Bool) : Accounted (stream.cancelInternal hasCancel) inHand := by
  unfold RuntimeReadableStream.cancelInternal
  by_cases readable : stream.state = .readable
  · have emptied : Accounted { stream with
        queue := []
        queueTotalSize := 0
        closeRequested := true
        cancelled := true } inHand := { accounted with
      total := rfl
      sizes := fun _ listed => by cases listed
      apart := .inl rfl
      whole := fun _ kept => absurd rfl kept
      chunks := accounted.emptied
      closed := fun _ => ⟨rfl, rfl⟩
      errored := fun _ => rfl
      cancelled := fun _ => rfl }
    have closed := emptied.finishClose rfl rfl
    rw [if_neg (not_not.mpr readable)]
    dsimp only
    split
    · exact { closed with }
    · exact closed
  · rw [if_pos readable]
    exact accounted

end

section

variable (accounted : Accounted stream [])

include accounted

/-- The read that waits longest may get a chunk. -/
theorem fulfil (readable : stream.state = .readable)
    (kept : ¬ stream.cancelled) {read : ℕ} {readRequests : List ℕ}
    (requests : stream.readRequests = read :: readRequests) (chunk : Chunk) :
    Accounted (stream.fulfil read readRequests chunk) [] := by
  have empty : stream.queue = [] := by
    rcases accounted.apart with empty | none
    · exact empty
    · rw [requests] at none
      cases none
  have turn := accounted.turn
  rw [requests] at turn
  have whole := accounted.whole (by simp [readable]) kept
  have all : stream.handed.map Prod.snd ++ [chunk] = stream.enqueued ++ [chunk] := by
    rw [← whole, empty, List.map_nil, List.append_nil]
  exact { accounted with
    turn := by
      simp only [RuntimeReadableStream.fulfil, settle, List.map_append]
      exact turn.serve
    apart := .inl empty
    whole := by
      intro _ _
      simp only [RuntimeReadableStream.fulfil, settle, List.map_append, empty, List.map_nil,
        List.append_nil, List.map_cons]
      exact all
    chunks := by
      simp only [RuntimeReadableStream.fulfil, settle, List.map_append, empty, List.map_nil,
        List.append_nil, List.map_cons]
      rw [all]
    handedOrder := by
      exact pairwise_concat accounted.handedOrder
        fun entry given => accounted.lt_waiting given (requests ▸ List.mem_cons_self)
    handed := by
      intro entry
      have pair : ((entry.1, .value entry.2) : ℕ × ReadResult Chunk Reason) =
          (read, .value chunk) ↔ entry = (read, chunk) := by
        simp [Prod.ext_iff]
      simp only [RuntimeReadableStream.fulfil, settle, List.mem_append, List.mem_singleton, pair]
      rw [accounted.handed entry, List.mem_append]
      exact or_right_comm
    dones := by
      intro other among
      rcases List.mem_append.mp among with before | now
      · exact absurd before (accounted.not_done readable)
      · simp at now
    rejections := by
      intro other error among
      rcases List.mem_append.mp among with before | now
      · exact absurd before (accounted.not_rejected readable)
      · simp at now
    waiting := fun _ => readable }

theorem store (readable : stream.state = .readable)
    (kept : ¬ stream.cancelled) (requests : stream.readRequests = []) (chunk : Chunk) {size : ℚ}
    (positive : 0 ≤ size) : Accounted (stream.store chunk size) [] := by
  have whole := accounted.whole (by simp [readable]) kept
  exact { accounted with
    total := by
      simp only [RuntimeReadableStream.store, List.map_append, List.sum_append, List.map_cons,
        List.map_nil, List.sum_cons, List.sum_nil, add_zero]
      rw [accounted.total]
    sizes := by
      exact forall_mem_concat accounted.sizes positive
    apart := .inr requests
    whole := by
      intro _ _
      simp only [RuntimeReadableStream.store]
      rw [List.map_append, ← List.append_assoc, whole]
      rfl
    chunks := by
      simp only [RuntimeReadableStream.store]
      rw [List.map_append, ← List.append_assoc, whole]
      exact List.prefix_refl _
    closed := fun ended => by
      change stream.state = .closed at ended
      rw [readable] at ended
      cases ended
    errored := fun failed => by
      change stream.state = .errored at failed
      rw [readable] at failed
      cases failed }

theorem controllerEnqueue (chunk : Chunk)
    (answer : SizeAnswer Reason) : Accounted (stream.controllerEnqueue chunk answer) [] := by
  unfold RuntimeReadableStream.controllerEnqueue
  by_cases refused : stream.state ≠ .readable ∨ stream.closeRequested
  · rw [if_pos refused]
    exact accounted
  · rw [if_neg refused]
    have readable : stream.state = .readable := not_not.mp (not_or.mp refused).1
    have kept : ¬ stream.cancelled := fun cancelled =>
      (not_or.mp refused).2 (accounted.cancelled cancelled)
    cases requests : stream.readRequests with
    | nil =>
      cases normal : normalizeWebChunkSize answer with
      | error error => exact accounted.controllerError error
      | ok size =>
        apply callPullIfNeeded .none
        exact accounted.store readable kept requests chunk (size_nonneg normal)
    | cons read readRequests =>
      apply callPullIfNeeded .none
      exact accounted.fulfil readable kept requests chunk

theorem take {queued : QueuedChunk Chunk}
    {queue : List (QueuedChunk Chunk)} (isFirst : stream.queue = queued :: queue) :
    Accounted (stream.take queued queue) [(stream.reads, queued.chunk)] := by
  have requests : stream.readRequests = [] := by
    rcases accounted.apart with empty | none
    · rw [isFirst] at empty
      cases empty
    · exact none
  have readable : stream.state = .readable := by
    cases state : stream.state with
    | readable => rfl
    | closed =>
      have empty := (accounted.closed state).2
      rw [isFirst] at empty
      cases empty
    | errored =>
      have empty := accounted.errored state
      rw [isFirst] at empty
      cases empty
  have turn := accounted.turn
  rw [requests] at turn
  have total : stream.queueTotalSize = queued.size + (queue.map QueuedChunk.size).sum := by
    rw [accounted.total, isFirst, List.map_cons, List.sum_cons]
  have rest : 0 ≤ (queue.map QueuedChunk.size).sum := by
    apply List.sum_nonneg
    intro size listed
    obtain ⟨other, among, same⟩ := List.mem_map.mp listed
    rw [← same]
    exact accounted.sizes other (isFirst ▸ List.mem_cons_of_mem _ among)
  exact { accounted with
    turn := by
      have taken := turn.hold
      simp only [List.nil_append, List.map_map] at taken
      have waits : (stream.take queued queue).readRequests = [] := requests
      rw [waits]
      exact taken
    total := by
      change max 0 (stream.queueTotalSize - queued.size) = _
      rw [total, add_sub_cancel_left]
      exact max_eq_right rest
    sizes := fun other among => accounted.sizes other (isFirst ▸ List.mem_cons_of_mem _ among)
    apart := .inr requests
    whole := by
      intro intact kept
      have whole := accounted.whole intact kept
      rw [isFirst] at whole
      simp only [RuntimeReadableStream.take, List.map_append, List.map_cons, List.map_nil,
        List.append_assoc] at whole ⊢
      exact whole
    chunks := by
      have chunks := accounted.chunks
      rw [isFirst] at chunks
      simp only [RuntimeReadableStream.take, List.map_append, List.map_cons, List.map_nil,
        List.append_assoc] at chunks ⊢
      exact chunks
    handedOrder := by
      exact pairwise_concat accounted.handedOrder fun entry given => accounted.lt_reads given
    handed := by
      intro entry
      have before := accounted.handed entry
      simp only [RuntimeReadableStream.take, List.mem_append, List.mem_singleton] at before ⊢
      rw [before]
      simp only [List.not_mem_nil, false_or, or_assoc]
      exact or_congr_right or_comm
    dones := fun read among => absurd among (accounted.not_done readable)
    rejections := fun read error among => absurd among (accounted.not_rejected readable)
    waiting := fun waits => absurd requests waits
    closed := fun ended => by
      change stream.state = .closed at ended
      rw [readable] at ended
      cases ended
    errored := fun failed => by
      change stream.state = .errored at failed
      rw [readable] at failed
      cases failed }

theorem settleNow (ended : stream.state ≠ .readable)
    {result : ReadResult Chunk Reason} (none : ∀ chunk, result ≠ .value chunk)
    (isDone : result = .done → stream.state = .closed)
    (isRejected : ∀ error, result = .rejected error → stream.state = .errored) :
    Accounted (stream.made.settle [(stream.reads, result)]) [] := by
  have requests : stream.readRequests = [] := by
    by_contra waits
    exact ended (accounted.waiting waits)
  have turn := accounted.turn
  rw [requests] at turn
  exact { accounted with
    turn := by
      have settled := turn.request.serve
      simp only [List.nil_append, List.map_map] at settled
      have waits : (stream.made.settle [(stream.reads, result)]).readRequests = [] := requests
      rw [waits]
      simp only [settle, List.map_append, List.nil_append]
      exact settled
    handed := by
      intro entry
      have notNow : (entry.1, ReadResult.value entry.2) ∉ [(stream.reads, result)] := by
        intro among
        exact none entry.2 (Prod.mk.inj (List.mem_singleton.mp among)).2.symm
      have same : (entry.1, ReadResult.value entry.2) ∈ stream.settled ++ [(stream.reads, result)] ↔
          (entry.1, .value entry.2) ∈ stream.settled := List.mem_append.trans (or_iff_left notNow)
      change _ ↔ _ ∈ stream.settled ++ [(stream.reads, result)] ∨ _
      rw [same]
      exact accounted.handed entry
    dones := by
      intro read among
      rcases List.mem_append.mp among with before | now
      · exact accounted.dones read before
      · have same := Prod.mk.inj (List.mem_singleton.mp now)
        refine ⟨isDone same.2.symm, ?_⟩
        intro entry given
        rw [same.1]
        exact accounted.lt_reads given
    rejections := by
      intro read error among
      rcases List.mem_append.mp among with before | now
      · exact accounted.rejections read error before
      · exact isRejected error (Prod.mk.inj (List.mem_singleton.mp now)).2.symm }

theorem wait (readable : stream.state = .readable) (empty : stream.queue = []) :
    Accounted { stream.made with readRequests := stream.readRequests ++ [stream.reads] } [] := by
  have turn := accounted.turn.request
  simp only [List.nil_append, List.map_map] at turn
  exact { accounted with
    turn := turn
    apart := .inl empty
    waiting := fun _ => readable }

theorem readFromReader : Accounted stream.readFromReader [] := by
  unfold RuntimeReadableStream.readFromReader
  cases isQueue : stream.queue with
  | cons queued queue =>
    have taken := accounted.take isQueue
    by_cases last : stream.closeRequested ∧ queue = []
    · dsimp only
      rw [if_pos last]
      apply resume (.resolveRead stream.reads queued.chunk)
      exact taken.finishClose last.1 last.2
    · dsimp only
      rw [if_neg last]
      apply callPullIfNeeded (.resolveRead stream.reads queued.chunk)
      exact taken
  | nil =>
    dsimp only
    by_cases closed : stream.state = .closed
    · rw [if_pos closed]
      exact accounted.settleNow (by simp [closed]) (by simp) (fun _ => closed) (by simp)
    · rw [if_neg closed]
      by_cases errored : stream.state = .errored
      · rw [if_pos errored]
        exact accounted.settleNow (by simp [errored]) (by simp) (by simp) (fun _ _ => errored)
      · rw [if_neg errored]
        have readable : stream.state = .readable := by
          cases state : stream.state with
          | readable => rfl
          | closed => exact absurd state closed
          | errored => exact absurd state errored
        apply callPullIfNeeded .none
        exact accounted.wait readable isQueue

theorem pop {frame : Frame Chunk} {frames : List (Frame Chunk)}
    (innermost : stream.frames = frame :: frames) :
    Accounted { stream with frames } frame.reads := by
  have split : stream.held = frame.reads ++
      ({ stream with frames } : RuntimeReadableStream Chunk Reason).held := by
    rw [held_eq, held_eq, innermost]
    rfl
  exact { accounted with
    turn := split ▸ accounted.turn
    handed := by
      rw [← split]
      exact accounted.handed }

end

end Accounted

/-- Every step keeps the chunks and the reads together. -/
theorem Accounted.step (accounted : Accounted stream []) {event : ReadableEvent Chunk Reason}
    {next : RuntimeReadableStream Chunk Reason} (stepped : stream.step event = some next) :
    Accounted next [] := by
  have constructed : ∀ after, stream.constructed after = some next → Accounted after [] →
      Accounted next [] := by
    intro after came kept
    unfold RuntimeReadableStream.constructed at came
    split at came
    · cases came
    · cases came
      exact kept
  cases event with
  | startReturned =>
    change stream.startReturned = some next at stepped
    unfold startReturned at stepped
    split at stepped
    · rename_i frames innermost
      cases stepped
      exact { accounted.pop innermost with }
    · cases stepped
  | startThrew reason =>
    change stream.startThrew reason = some next at stepped
    unfold startThrew at stepped
    split at stepped
    · rename_i frames innermost
      cases stepped
      exact (accounted.pop innermost).controllerError reason
    · cases stepped
  | startResolved =>
    change stream.startResolved = some next at stepped
    unfold startResolved at stepped
    split at stepped
    · cases stepped
      apply Accounted.callPullIfNeeded .none
      exact { accounted with }
    · cases stepped
  | startRejected reason =>
    change stream.startRejected reason = some next at stepped
    unfold startRejected at stepped
    split at stepped
    · cases stepped
      apply Accounted.controllerError
      exact { accounted with }
    · cases stepped
  | enqueue chunk answer =>
    cases stepped
    exact accounted.controllerEnqueue chunk answer
  | close =>
    cases stepped
    exact accounted.controllerClose
  | error reason =>
    cases stepped
    exact accounted.controllerError reason
  | getReader =>
    apply constructed _ stepped
    unfold getReader
    split
    · exact accounted
    · exact { accounted with }
  | read reader =>
    apply constructed _ stepped
    split
    · exact accounted.readFromReader
    · exact accounted
  | releaseLock reader =>
    apply constructed _ stepped
    unfold releaseLock
    split
    · exact accounted
    · exact { accounted with }
  | cancel hasCancel =>
    apply constructed _ stepped
    split
    · exact accounted
    · exact accounted.cancelInternal hasCancel
  | cancelFromReader reader hasCancel =>
    apply constructed _ stepped
    split
    · exact accounted.cancelInternal hasCancel
    · exact accounted
  | cancelReturned =>
    change stream.cancelReturned = some next at stepped
    unfold cancelReturned at stepped
    split at stepped
    · rename_i frames innermost
      cases stepped
      exact accounted.pop innermost
    · cases stepped
  | pullReturned =>
    change stream.pullReturned = some next at stepped
    unfold pullReturned at stepped
    split at stepped
    · rename_i following frames innermost
      cases stepped
      have popped : Accounted { stream with frames } following.reads := accounted.pop innermost
      apply Accounted.resume following
      exact { popped with }
    · cases stepped
  | pullThrew reason =>
    change stream.pullThrew reason = some next at stepped
    unfold pullThrew at stepped
    split at stepped
    · rename_i following frames innermost
      cases stepped
      have popped : Accounted { stream with frames } following.reads := accounted.pop innermost
      apply Accounted.resume following
      apply Accounted.controllerError
      exact { popped with }
    · cases stepped
  | pullResolved =>
    change stream.pullResolved = some next at stepped
    unfold pullResolved at stepped
    split at stepped
    · split at stepped
      · cases stepped
        apply Accounted.callPullIfNeeded .none
        exact { accounted with }
      · cases stepped
        exact { accounted with }
    · cases stepped
  | pullRejected reason =>
    change stream.pullRejected reason = some next at stepped
    unfold pullRejected at stepped
    split at stepped
    · cases stepped
      apply Accounted.controllerError
      exact { accounted with }
    · cases stepped

end RuntimeReadableStream

end Holonomy.Streams
