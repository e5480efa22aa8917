import Holonomy.Streams.ReadableOrder

/-!
# When the source is asked

The source is asked for chunks when a read waits or the queue is not full, and not again before it
has answered. What is wanted in the meantime makes it be asked once more when it has, if it is
still wanted then.
-/

namespace Holonomy.Streams

open Foundation

variable {Chunk Reason : Type}

/-- Whether an activation waits for `pull`. -/
def Frame.isPull : Frame Chunk → Bool
  | .pull _ => true
  | _ => false

namespace RuntimeReadableStream

variable {stream next middle : RuntimeReadableStream Chunk Reason}

def outstanding (stream : RuntimeReadableStream Chunk Reason) : ℕ :=
  stream.frames.countP Frame.isPull + stream.pullResults

def DemandAppears (stream next : RuntimeReadableStream Chunk Reason) : Prop :=
  next.Demand ∧ (¬ stream.Demand ∨ next.queueTotalSize < stream.queueTotalSize ∨
    ∃ read ∈ next.readRequests, read ∉ stream.readRequests)

structure SamePulls (stream next : RuntimeReadableStream Chunk Reason) : Prop where
  hasPull : next.hasPull = stream.hasPull
  pulling : next.pulling = stream.pulling
  pullAgain : next.pullAgain = stream.pullAgain
  pulls : next.pulls = stream.pulls
  outstanding : next.outstanding = stream.outstanding

/-- The source has answered what it was asked. -/
structure Answered (stream next : RuntimeReadableStream Chunk Reason) : Prop where
  hasPull : next.hasPull = stream.hasPull
  pulling : next.pulling = false
  pulls : next.pulls = stream.pulls
  outstanding : next.outstanding + 1 = stream.outstanding

/-- What a step may be for the source. -/
inductive PullStep (stream : RuntimeReadableStream Chunk Reason) :
    RuntimeReadableStream Chunk Reason → Prop where
  | quiet {next : RuntimeReadableStream Chunk Reason} (same : SamePulls stream next)
      (wanted : next.Demand → stream.Demand ∧ next.queueTotalSize = stream.queueTotalSize ∧
        next.readRequests = stream.readRequests) : PullStep stream next
  | asks {middle : RuntimeReadableStream Chunk Reason} (same : SamePulls stream middle)
      (continuation : Continuation Chunk) : PullStep stream (middle.callPullIfNeeded continuation)
  | answers {next : RuntimeReadableStream Chunk Reason} (answered : Answered stream next) :
      PullStep stream next
  | asksAgain {middle : RuntimeReadableStream Chunk Reason} (again : stream.pullAgain)
      (answered : Answered stream middle) : PullStep stream (middle.callPullIfNeeded .none)

theorem SamePulls.refl : SamePulls stream stream := ⟨rfl, rfl, rfl, rfl, rfl⟩

section

variable (same : SamePulls stream middle)

include same

theorem SamePulls.controllerError
    (reason : Option (Failure Reason)) : SamePulls stream (middle.controllerError reason) := by
  unfold RuntimeReadableStream.controllerError
  split
  · exact same
  · exact { same with }

theorem SamePulls.finishClose :
    SamePulls stream middle.finishClose := by
  unfold RuntimeReadableStream.finishClose
  split
  · exact same
  · exact { same with }

theorem SamePulls.resume (continuation : Continuation Chunk) :
    SamePulls stream (middle.resume continuation) := by
  cases continuation with
  | none => exact same
  | resolveRead read chunk => exact { same with }

end

theorem Answered.controllerError (answered : Answered stream middle)
    (reason : Option (Failure Reason)) : Answered stream (middle.controllerError reason) := by
  unfold RuntimeReadableStream.controllerError
  split
  · exact answered
  · exact { answered with }

theorem Answered.resume (answered : Answered stream middle) (continuation : Continuation Chunk) :
    Answered stream (middle.resume continuation) := by
  cases continuation with
  | none => exact answered
  | resolveRead read chunk => exact { answered with }

theorem state_controllerError (reason : Option (Failure Reason)) :
    (stream.controllerError reason).state ≠ .readable := by
  unfold controllerError
  by_cases readable : stream.state = .readable
  · rw [if_neg (not_not.mpr readable)]
    exact ReadableState.noConfusion
  · rw [if_pos readable]
    exact readable

theorem state_finishClose : stream.finishClose.state ≠ .readable := by
  unfold finishClose
  by_cases readable : stream.state = .readable
  · rw [if_neg (not_not.mpr readable)]
    exact ReadableState.noConfusion
  · rw [if_pos readable]
    exact readable

theorem state_resume (continuation : Continuation Chunk) :
    (stream.resume continuation).state = stream.state := by
  cases continuation <;> rfl

theorem PullStep.ended (same : SamePulls stream next) (ended : next.state ≠ .readable) :
    PullStep stream next :=
  .quiet same fun demand => absurd demand.2.1 ended

theorem PullStep.unseen (same : SamePulls stream next)
    (mark : next.highWaterMark = stream.highWaterMark) (started : next.started = stream.started)
    (state : next.state = stream.state) (closing : next.closeRequested = stream.closeRequested)
    (total : next.queueTotalSize = stream.queueTotalSize)
    (requests : next.readRequests = stream.readRequests) : PullStep stream next := by
  apply PullStep.quiet same
  intro demand
  unfold Demand controllerDesiredSize at demand ⊢
  rw [started, state, closing, requests, total, mark] at demand
  exact ⟨demand, total, requests⟩

theorem PullStep.controllerEnqueue (chunk : Chunk) (answer : SizeAnswer Reason) :
    PullStep stream (stream.controllerEnqueue chunk answer) := by
  unfold RuntimeReadableStream.controllerEnqueue
  split
  · exact .unseen .refl rfl rfl rfl rfl rfl rfl
  · split
    · apply PullStep.asks
      exact { SamePulls.refl with }
    · split
      · exact .ended (SamePulls.refl.controllerError _) (state_controllerError _)
      · apply PullStep.asks
        exact { SamePulls.refl with }

theorem PullStep.controllerClose : PullStep stream stream.controllerClose := by
  unfold RuntimeReadableStream.controllerClose
  have closing : SamePulls stream { stream with closeRequested := true } :=
    { SamePulls.refl with }
  split
  · exact .unseen .refl rfl rfl rfl rfl rfl rfl
  · split
    · exact .ended closing.finishClose state_finishClose
    · exact .quiet closing fun demand => absurd rfl demand.2.2.1

theorem PullStep.readFromReader : PullStep stream stream.readFromReader := by
  unfold RuntimeReadableStream.readFromReader
  split
  · rename_i queued queue isQueue
    have taken : SamePulls stream (stream.take queued queue) :=
      { SamePulls.refl with }
    split
    · apply PullStep.ended (taken.finishClose.resume _)
      rw [state_resume]
      exact state_finishClose
    · exact .asks taken _
  · split
    · exact .unseen { SamePulls.refl with } rfl rfl rfl rfl rfl rfl
    · split
      · exact .unseen { SamePulls.refl with } rfl rfl rfl rfl rfl rfl
      · apply PullStep.asks
        exact { SamePulls.refl with }

theorem PullStep.cancelInternal (hasCancel : Bool) :
    PullStep stream (stream.cancelInternal hasCancel) := by
  unfold RuntimeReadableStream.cancelInternal
  split
  · exact .unseen .refl rfl rfl rfl rfl rfl rfl
  · have closed : SamePulls stream ({ stream with
        queue := []
        queueTotalSize := 0
        closeRequested := true
        cancelled := true } : RuntimeReadableStream Chunk Reason).finishClose :=
      SamePulls.finishClose { SamePulls.refl with }
    dsimp only
    split
    · apply PullStep.ended
      · exact { closed with
          outstanding := by
            have same := closed.outstanding
            unfold RuntimeReadableStream.outstanding at same ⊢
            rw [List.countP_cons]
            simpa [Frame.isPull] using same }
      · exact state_finishClose
    · exact .ended closed state_finishClose

theorem pullStep {event : ReadableEvent Chunk Reason} (stepped : stream.step event = some next) :
    PullStep stream next := by
  have constructed : ∀ after, stream.constructed after = some next → PullStep stream after →
      PullStep stream next := by
    intro after came step
    unfold RuntimeReadableStream.constructed at came
    split at came
    · cases came
    · cases came
      exact step
  have unseen : PullStep stream stream := .unseen .refl rfl rfl rfl rfl rfl rfl
  have fewer : ∀ {frame frames}, stream.frames = frame :: frames → frame.isPull = false →
      SamePulls stream { stream with frames } := by
    intro frame frames innermost other
    exact { SamePulls.refl with
      outstanding := by
        unfold outstanding
        rw [innermost, List.countP_cons]
        simp [other] }
  have answered : 0 < stream.pullResults → Answered stream { stream with
      pullResults := stream.pullResults - 1
      pulling := false } := by
    intro some'
    exact {
      hasPull := rfl
      pulling := rfl
      pulls := rfl
      outstanding := by
        unfold outstanding
        dsimp only
        omega }
  cases event with
  | startReturned =>
    change stream.startReturned = some next at stepped
    unfold startReturned at stepped
    split at stepped
    · rename_i frames innermost
      cases stepped
      exact .unseen { fewer innermost rfl with } rfl rfl rfl rfl rfl rfl
    · cases stepped
  | startThrew reason =>
    change stream.startThrew reason = some next at stepped
    unfold startThrew at stepped
    split at stepped
    · rename_i frames innermost
      cases stepped
      exact .ended ((fewer innermost rfl).controllerError reason) (state_controllerError reason)
    · cases stepped
  | startResolved =>
    change stream.startResolved = some next at stepped
    unfold startResolved at stepped
    split at stepped
    · cases stepped
      apply PullStep.asks
      exact { SamePulls.refl with }
    · cases stepped
  | startRejected reason =>
    change stream.startRejected reason = some next at stepped
    unfold startRejected at stepped
    split at stepped
    · cases stepped
      apply PullStep.ended _ (state_controllerError reason)
      apply SamePulls.controllerError
      exact { SamePulls.refl with }
    · cases stepped
  | enqueue chunk answer =>
    cases stepped
    exact .controllerEnqueue chunk answer
  | close =>
    cases stepped
    exact .controllerClose
  | error reason =>
    cases stepped
    exact .ended (SamePulls.refl.controllerError reason) (state_controllerError reason)
  | getReader =>
    apply constructed _ stepped
    unfold getReader
    split
    · exact unseen
    · exact .unseen { SamePulls.refl with } rfl rfl rfl rfl rfl rfl
  | read reader =>
    apply constructed _ stepped
    split
    · exact .readFromReader
    · exact unseen
  | releaseLock reader =>
    apply constructed _ stepped
    unfold releaseLock
    split
    · exact unseen
    · exact .unseen { SamePulls.refl with } rfl rfl rfl rfl rfl rfl
  | cancel hasCancel =>
    apply constructed _ stepped
    split
    · exact unseen
    · exact .cancelInternal hasCancel
  | cancelFromReader reader hasCancel =>
    apply constructed _ stepped
    split
    · exact .cancelInternal hasCancel
    · exact unseen
  | cancelReturned =>
    change stream.cancelReturned = some next at stepped
    unfold cancelReturned at stepped
    split at stepped
    · rename_i frames innermost
      cases stepped
      exact .unseen (fewer innermost rfl) rfl rfl rfl rfl rfl rfl
    · cases stepped
  | pullReturned =>
    change stream.pullReturned = some next at stepped
    unfold pullReturned at stepped
    split at stepped
    · rename_i following frames innermost
      cases stepped
      have returned : SamePulls stream
          { stream with frames, pullResults := stream.pullResults + 1 } :=
        { SamePulls.refl with
          outstanding := by
            unfold outstanding
            rw [innermost, List.countP_cons]
            simp only [Frame.isPull, if_true]
            omega }
      cases following with
      | none => exact .unseen returned rfl rfl rfl rfl rfl rfl
      | resolveRead read chunk => exact .unseen (returned.resume _) rfl rfl rfl rfl rfl rfl
    · cases stepped
  | pullThrew reason =>
    change stream.pullThrew reason = some next at stepped
    unfold pullThrew at stepped
    split at stepped
    · rename_i following frames innermost
      cases stepped
      have threw : Answered stream { stream with frames, pulling := false } := {
        hasPull := rfl
        pulling := rfl
        pulls := rfl
        outstanding := by
          unfold outstanding
          rw [innermost, List.countP_cons]
          simp only [Frame.isPull, if_true]
          omega }
      exact .answers ((threw.controllerError reason).resume following)
    · cases stepped
  | pullResolved =>
    change stream.pullResolved = some next at stepped
    unfold pullResolved at stepped
    split at stepped
    · rename_i waits
      split at stepped
      · rename_i again
        cases stepped
        exact .asksAgain again { answered waits.2 with }
      · cases stepped
        exact .answers (answered waits.2)
    · cases stepped
  | pullRejected reason =>
    change stream.pullRejected reason = some next at stepped
    unfold pullRejected at stepped
    split at stepped
    · rename_i waits
      cases stepped
      exact .answers ((answered waits.2).controllerError reason)
    · cases stepped

structure Asked (stream : RuntimeReadableStream Chunk Reason) : Prop where
  outstanding : stream.outstanding = if stream.pulling then 1 else 0
  hasPull : stream.pulling → stream.hasPull

namespace Asked

theorem new {hasPull : Bool} {highWaterMark : ℚ} :
    Asked (new hasPull highWaterMark : RuntimeReadableStream Chunk Reason) where
  outstanding := rfl
  hasPull := fun asked => by cases asked

section

variable (asked : Asked stream)

include asked

theorem same (same : SamePulls stream next) : Asked next where
  outstanding := by rw [same.outstanding, same.pulling, asked.outstanding]
  hasPull := by
    rw [same.pulling, same.hasPull]
    exact asked.hasPull

theorem answered (answered : Answered stream next) : Asked next where
  outstanding := by
    have before := asked.outstanding
    have one := answered.outstanding
    rw [answered.pulling]
    split at before
    · simp only [Bool.false_eq_true, if_false]
      omega
    · omega
  hasPull := by
    rw [answered.pulling]
    exact fun pulling => by cases pulling

theorem callPullIfNeeded (continuation : Continuation Chunk) :
    Asked (stream.callPullIfNeeded continuation) := by
  unfold RuntimeReadableStream.callPullIfNeeded
  split
  · exact asked.same (SamePulls.refl.resume continuation)
  · split
    · have again : Asked { stream with pullAgain := true } := { asked with }
      exact again.same (SamePulls.refl.resume continuation)
    · rename_i quiet
      split
      · exact asked.same (SamePulls.refl.resume continuation)
      · rename_i can
        exact {
          outstanding := by
            have none := asked.outstanding
            rw [if_neg quiet] at none
            unfold RuntimeReadableStream.outstanding at none ⊢
            rw [List.countP_cons]
            simp only [Frame.isPull, if_true]
            omega
          hasPull := fun _ => not_not.mp can }

theorem step (step : PullStep stream next) : Asked next := by
  cases step with
  | quiet same wanted => exact asked.same same
  | asks same continuation => exact (asked.same same).callPullIfNeeded continuation
  | answers answered => exact asked.answered answered
  | asksAgain again answered => exact (asked.answered answered).callPullIfNeeded .none

end

end Asked

theorem pulls_callPullIfNeeded (stream : RuntimeReadableStream Chunk Reason)
    (continuation : Continuation Chunk) :
    (stream.callPullIfNeeded continuation).pulls = stream.pulls ∨
      ((stream.callPullIfNeeded continuation).pulls = stream.pulls + 1 ∧
        (stream.callPullIfNeeded continuation).Demand) := by
  have resumed : ∀ stream : RuntimeReadableStream Chunk Reason,
      (stream.resume continuation).pulls = stream.pulls := by
    intro stream
    cases continuation <;> rfl
  unfold callPullIfNeeded
  split
  · exact .inl (resumed stream)
  · rename_i demand
    split
    · exact .inl (resumed _)
    · split
      · exact .inl (resumed stream)
      · exact .inr ⟨rfl, not_not.mp demand⟩

theorem PullStep.pulls (step : PullStep stream next) :
    next.pulls = stream.pulls ∨ (next.pulls = stream.pulls + 1 ∧ next.Demand) := by
  cases step with
  | quiet same wanted => exact .inl same.pulls
  | @asks middle same continuation =>
    rw [← same.pulls]
    exact pulls_callPullIfNeeded middle continuation
  | answers answered => exact .inl answered.pulls
  | @asksAgain middle again answered =>
    rw [← answered.pulls]
    exact pulls_callPullIfNeeded middle .none

/-- While the last of so many calls is outstanding, it is known that there must be another. -/
def Remembers (pulls : ℕ) (stream : RuntimeReadableStream Chunk Reason) : Prop :=
  pulls ≤ stream.pulls ∧ (stream.pulls = pulls → stream.pulling → stream.pullAgain)

theorem Remembers.callPullIfNeeded {pulls : ℕ} (remembers : Remembers pulls stream)
    (continuation : Continuation Chunk) :
    Remembers pulls (stream.callPullIfNeeded continuation) := by
  have resumed : ∀ stream : RuntimeReadableStream Chunk Reason, Remembers pulls stream →
      Remembers pulls (stream.resume continuation) := by
    intro stream remembers
    cases continuation <;> exact remembers
  unfold RuntimeReadableStream.callPullIfNeeded
  split
  · exact resumed stream remembers
  · split
    · exact resumed _ ⟨remembers.1, fun _ _ => rfl⟩
    · split
      · exact resumed stream remembers
      · have less := remembers.1
        refine ⟨?_, fun same => ?_⟩
        · dsimp only
          omega
        · dsimp only at same
          omega

theorem Remembers.step {pulls : ℕ} (remembers : Remembers pulls stream)
    (step : PullStep stream next) : Remembers pulls next := by
  have ended : ∀ {next}, Answered stream next → Remembers pulls next := by
    intro next answered
    refine ⟨answered.pulls ▸ remembers.1, fun _ pulling => ?_⟩
    rw [answered.pulling] at pulling
    cases pulling
  have kept : ∀ {next}, SamePulls stream next → Remembers pulls next := by
    intro next same
    unfold Remembers
    rw [same.pulls, same.pulling, same.pullAgain]
    exact remembers
  cases step with
  | quiet same wanted => exact kept same
  | asks same continuation => exact (kept same).callPullIfNeeded continuation
  | answers answered => exact ended answered
  | asksAgain again answered => exact (ended answered).callPullIfNeeded .none

/-- What begins to be wanted while a call is outstanding is remembered. -/
theorem DemandAppears.remembers (appears : DemandAppears stream next) (pulling : stream.pulling)
    (step : PullStep stream next) : Remembers stream.pulls next := by
  have ended : ∀ {next}, Answered stream next → Remembers stream.pulls next := by
    intro next answered
    refine ⟨answered.pulls.ge, fun _ pulling => ?_⟩
    rw [answered.pulling] at pulling
    cases pulling
  cases step with
  | quiet same wanted =>
    obtain ⟨before, total, requests⟩ := wanted appears.1
    rcases appears.2 with none | less | ⟨read, waits, new⟩
    · exact absurd before none
    · rw [total] at less
      exact absurd less (lt_irrefl _)
    · rw [requests] at waits
      exact absurd waits new
  | @asks middle same continuation =>
    have wanted : middle.Demand := by
      by_contra none
      have next : (middle.callPullIfNeeded continuation).Demand := appears.1
      unfold RuntimeReadableStream.callPullIfNeeded at next
      rw [if_pos none] at next
      cases continuation with
      | none => exact none next
      | resolveRead read chunk => exact none next
    have waits : middle.pulling := same.pulling.trans pulling
    unfold RuntimeReadableStream.callPullIfNeeded
    rw [if_neg (not_not.mpr wanted), if_pos waits]
    refine ⟨?_, fun _ _ => ?_⟩
    · cases continuation <;> exact same.pulls.ge
    · cases continuation <;> rfl
  | answers answered => exact ended answered
  | asksAgain again answered => exact (ended answered).callPullIfNeeded .none

theorem pulls_of_pullResolved {last done : RuntimeReadableStream Chunk Reason} (asked : Asked last)
    (remembers : Remembers last.pulls last) (resolved : last.step .pullResolved = some done)
    (wanted : last.Demand) : done.pulls = last.pulls + 1 := by
  change last.pullResolved = some done at resolved
  unfold pullResolved at resolved
  by_cases waits : last.frames = [] ∧ 0 < last.pullResults
  · rw [if_pos waits] at resolved
    have pulling : last.pulling := by
      by_contra quiet
      have none := asked.outstanding
      rw [if_neg quiet] at none
      unfold outstanding at none
      omega
    rw [if_pos (remembers.2 rfl pulling)] at resolved
    have can := asked.hasPull pulling
    have still : ({ last with
        pullResults := last.pullResults - 1
        pulling := false
        pullAgain := false } : RuntimeReadableStream Chunk Reason).Demand := wanted
    rw [← Option.some.inj resolved]
    unfold callPullIfNeeded
    rw [if_neg (not_not.mpr still), if_neg Bool.false_ne_true, if_neg (not_not.mpr can)]
  · rw [if_neg waits] at resolved
    cases resolved

/-- What a stream gives to those who read it. -/
structure Delivers (stream : RuntimeReadableStream Chunk Reason) : Prop where
  chunks : stream.handed.map Prod.snd <+: stream.enqueued
  inOrder : stream.handed.Pairwise fun entry later => entry.1 < later.1
  values : ∀ read chunk, (read, .value chunk) ∈ stream.settled → (read, chunk) ∈ stream.handed
  /-- A read that got a chunk has settled with it, or will when `pull` returns. -/
  given : ∀ entry ∈ stream.handed,
    (entry.1, .value entry.2) ∈ stream.settled ∨ entry ∈ stream.held
  once : (stream.settled.map Prod.fst).Nodup
  ended : ∀ read, (read, .done) ∈ stream.settled →
    stream.state = .closed ∧ stream.closeRequested ∧ stream.queue = [] ∧
      (¬ stream.cancelled → stream.handed.map Prod.snd = stream.enqueued) ∧
        ∀ entry ∈ stream.handed, entry.1 < read
  settledOrder : stream.settled.Pairwise fun entry later =>
    entry.1 < later.1 ∨ (entry.1, later.1) ∈ stream.nested
  passed : ∀ read ∈ stream.settled.map Prod.fst, ∀ earlier < read,
    earlier ∈ stream.settled.map Prod.fst ∨
      (earlier ∈ stream.held.map Prod.fst ∧ (read, earlier) ∈ stream.nested)
  apart : stream.queue = [] ∨ stream.readRequests = []
  total : stream.queueTotalSize = (stream.queue.map QueuedChunk.size).sum
  onePull : stream.outstanding ≤ 1

theorem Accounted.delivers (accounted : Accounted stream []) (asked : Asked stream) :
    Delivers stream where
  chunks := (List.prefix_append _ _).trans accounted.chunks
  inOrder := accounted.handedOrder
  values := fun read chunk among => (accounted.handed (read, chunk)).mpr (.inl among)
  given := fun entry got => (accounted.handed entry).mp got
  once := by
    have distinct := accounted.turn.once
    rw [List.append_assoc] at distinct
    exact distinct.of_append_left
  ended := by
    intro read among
    obtain ⟨closed, earlier⟩ := accounted.dones read among
    obtain ⟨asked, empty⟩ := accounted.closed closed
    refine ⟨closed, asked, empty, fun kept => ?_, earlier⟩
    have whole := accounted.whole (by simp [closed]) kept
    rw [empty, List.map_nil, List.append_nil] at whole
    exact whole
  settledOrder := List.pairwise_map.mp accounted.turn.ordered
  passed := fun read done earlier before => accounted.turn.passed done before
  apart := accounted.apart
  total := accounted.total
  onePull := by
    rw [asked.outstanding]
    split
    · exact le_rfl
    · exact zero_le_one

variable {hasPull : Bool} {highWaterMark : ℚ} {events : List (ReadableEvent Chunk Reason)}

theorem accounted_of_reaches (reached : (machine hasPull highWaterMark).Reaches events stream) :
    Accounted stream [] ∧ Asked stream := by
  apply reached.invariant
  · exact ⟨Accounted.new, Asked.new⟩
  · intro state event next holds stepped
    exact ⟨holds.1.step stepped, holds.2.step (pullStep stepped)⟩

/-- In every run a stream delivers every chunk once and asks its source only for what is wanted;
what begins to be wanted while a call is outstanding and is wanted when the call is answered makes
the source be asked again. -/
theorem readable_delivers (reached : (machine hasPull highWaterMark).Reaches events stream) :
    Delivers stream ∧
      (∀ event next, stream.step event = some next →
        next.pulls = stream.pulls ∨ (next.pulls = stream.pulls + 1 ∧ next.Demand)) ∧
      ∀ event next later last done, stream.step event = some next → 0 < stream.outstanding →
        DemandAppears stream next →
          (machine hasPull highWaterMark).Leads (fun _ _ => True) next later last →
            last.pulls = stream.pulls → last.step .pullResolved = some done → last.Demand →
              done.pulls = last.pulls + 1 := by
  obtain ⟨accounted, asked⟩ := accounted_of_reaches reached
  refine ⟨accounted.delivers asked, fun event next stepped => (pullStep stepped).pulls, ?_⟩
  intro event next later last done stepped outstanding appears leads same resolved wanted
  have pulling : stream.pulling := by
    by_contra quiet
    have none := asked.outstanding
    rw [if_neg quiet] at none
    omega
  have remembers : Remembers stream.pulls last :=
    leads.keeps (Remembers stream.pulls) (appears.remembers pulling (pullStep stepped))
      fun _ _ _ holds _ moved => holds.step (pullStep moved)
  have further : (machine hasPull highWaterMark).Reaches (events ++ [event] ++ later) last :=
    Machine.Leads.append (.step reached trivial stepped) leads
  rw [← same] at remembers
  exact pulls_of_pullResolved (accounted_of_reaches further).2 remembers resolved wanted

/-- A source enqueues two chunks and is asked by the first read, inside which the second is made. -/
def nestedReads : List (ReadableEvent ℕ ℕ) :=
  [.enqueue 10 .absent, .enqueue 11 .absent, .startReturned, .startResolved, .getReader, .read 0,
    .read 0, .pullReturned]

theorem settled_nestedReads : ∃ stream : RuntimeReadableStream ℕ ℕ,
    (machine true 2).Reaches nestedReads stream ∧
      stream.settled = [(1, .value 11), (0, .value 10)] := by
  have run : ((machine true 2).run nestedReads).map settled =
      some [(1, .value 11), (0, .value 10)] := by
    decide +kernel
  obtain ⟨stream, reached, settled⟩ := Machine.exists_of_run run
  exact ⟨stream, reached, settled⟩

/-- Both reads get their chunks. -/
theorem readable_delivers_nestedReads : ∃ stream : RuntimeReadableStream ℕ ℕ,
    (machine true 2).Reaches nestedReads stream ∧
      stream.settled = [(1, .value 11), (0, .value 10)] ∧ Delivers stream := by
  obtain ⟨stream, reached, settled⟩ := settled_nestedReads
  exact ⟨stream, reached, settled, (readable_delivers reached).1⟩

/-- Reads do not always settle in the order they are made. -/
theorem not_settles_in_order : ¬ ∀ (events : List (ReadableEvent ℕ ℕ))
    (stream : RuntimeReadableStream ℕ ℕ), (machine true 2).Reaches events stream →
      stream.settled.Pairwise fun entry later => entry.1 < later.1 := by
  intro ordered
  obtain ⟨stream, reached, settled⟩ := settled_nestedReads
  have order := ordered nestedReads stream reached
  rw [settled] at order
  have first := List.rel_of_pairwise_cons order List.mem_cons_self
  exact absurd first (by decide)

end RuntimeReadableStream

end Holonomy.Streams
