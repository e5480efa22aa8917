import Holonomy.Foundation.Machine

/-!
# The order of bytes

The bytes that consumers get are those that were pushed, in their order, as long as none overtake
others: bytes that are pushed to consumers directly overtake those in the queue and those that a
read holds while the read hook runs inside it, and a read overtakes another that holds bytes.
-/

namespace Holonomy.Streams

open Foundation

/-! ## Readable streams of Node

A stream keeps the chunks that were pushed and not read, or hands them to listeners and iterators at
once.
-/

/-- The bytes of a chunk. -/
abbrev Bytes := List UInt8

/-- Who reads. -/
inductive ReadCaller where
  | direct
  | flow
  | iterator
  deriving DecidableEq

/-- A task of an activation. -/
inductive ReadTask where
  | request
  | requestIfNeeded
  | requestUnlessFlow
  | maybeEnd
  | endUnlessFlow
  | autoDestroy
  | release
  | read (size : Option ℕ) (caller : ReadCaller)
  | retry (size : Option ℕ) (caller : ReadCaller)
  | nothing (caller : ReadCaller)
  | give (caller : ReadCaller) (output : Bytes)
  | flow
  | flowNext
  deriving DecidableEq

/-- What an activation waits for. -/
inductive ReadCallback where
  | hook (token : ℕ)
  | data
  | finish
  deriving DecidableEq

structure Readable where
  highWaterMark : ℕ
  autoDestroy : Bool
  readableFlowing : Option Bool
  readableEnded : Bool
  asyncReads : ℕ
  queue : List Bytes
  endEmitted : Bool
  ended : Bool
  flowReading : Bool
  queueBytes : ℕ
  readReleaseScheduled : Option ℕ
  activeReadToken : Option ℕ
  nextReadToken : ℕ
  destroyed : Bool
  current : Option (List ReadTask)
  frames : List (ReadCallback × List ReadTask)
  hookPromises : List ℕ
  pushed : Bytes
  handed : Bytes
  consumed : ℕ
  ends : ℕ

/-- What can happen to a stream. -/
inductive NodeReadableEvent where
  | tick
  | push (bytes : Bytes)
  | pushEnd
  | read (size : Option ℕ)
  /-- The stream is to flow, or a listener for chunks is added. -/
  | resume
  | pause
  | next
  | destroy
  | returned (isPromise : Bool)
  | threw
  | hookResolved (token : ℕ)
  | hookRejected (token : ℕ)
  | released
  deriving DecidableEq

namespace Readable

/-- A stream that was not used. -/
def new (highWaterMark : ℕ) (autoDestroy : Bool) : Readable :=
  { highWaterMark, autoDestroy, readableFlowing := none, readableEnded := false, asyncReads := 0,
    queue := [], endEmitted := false, ended := false, flowReading := false, queueBytes := 0,
    readReleaseScheduled := none, activeReadToken := none, nextReadToken := 0, destroyed := false,
    current := none, frames := [], hookPromises := [], pushed := [], handed := [], consumed := 0,
    ends := 0 }

variable (stream : Readable)

def hasReadableCapacity : Bool :=
  if stream.highWaterMark = 0 then stream.queueBytes = 0 else stream.queueBytes <
    stream.highWaterMark

def doing (tasks : List ReadTask) : Readable := { stream with current := some tasks }

def waitFor (callback : ReadCallback) (tasks : List ReadTask) : Readable :=
  { stream with current := none, frames := (callback, tasks) :: stream.frames }

def hand (bytes : Bytes) : Readable := { stream with handed := stream.handed ++ bytes }

/-- The source is asked for chunks, unless it was asked or there are none. -/
def requestRead (tasks : List ReadTask) : Readable :=
  if stream.activeReadToken.isSome ∨ stream.ended then stream.doing tasks
  else { stream with
    nextReadToken := stream.nextReadToken + 1
    activeReadToken := some (stream.nextReadToken + 1) }.waitFor
      (.hook (stream.nextReadToken + 1)) tasks

def maybeEmitEnd (tasks : List ReadTask) : Readable :=
  if ¬ stream.ended ∨ stream.queue ≠ [] ∨ stream.endEmitted then stream.doing tasks
  else { stream with
    endEmitted := true
    readableEnded := true
    asyncReads := 0
    ends := stream.ends + 1 }.waitFor .finish (.autoDestroy :: tasks)

def scheduleReadRelease (tasks : List ReadTask) : Readable :=
  if stream.activeReadToken.isNone ∨ stream.readReleaseScheduled.isSome ∨ stream.ended then
    stream.doing tasks
  else { stream with readReleaseScheduled := stream.activeReadToken }.doing tasks

/-- What a read takes of the first chunk, and what it leaves of it. -/
def outputOf (first : Bytes) (size : Option ℕ) : Bytes × Option Bytes :=
  let requested := size.getD first.length
  if first.length ≤ requested then (first, none)
  else (first.take requested, some (first.drop requested))

def take (size : Option ℕ) (caller : ReadCaller) (first : Bytes) (queue : List Bytes)
    (tasks : List ReadTask) : Readable :=
  let output := outputOf first size
  { stream with
    queue := output.2.toList ++ queue
    queueBytes := stream.queueBytes - output.1.length
    consumed := stream.consumed + output.1.length }.doing
      (.requestUnlessFlow :: .endUnlessFlow :: .give caller output.1 :: tasks)

def perform (task : ReadTask) (tasks : List ReadTask) : Readable :=
  match task with
  | .request => stream.requestRead tasks
  | .requestIfNeeded =>
    if stream.hasReadableCapacity then stream.requestRead tasks else stream.doing tasks
  | .requestUnlessFlow =>
    if stream.flowReading ∨ ¬ stream.hasReadableCapacity then stream.doing tasks
    else stream.requestRead tasks
  | .maybeEnd => stream.maybeEmitEnd tasks
  | .endUnlessFlow =>
    if stream.flowReading then stream.doing tasks else stream.maybeEmitEnd tasks
  | .autoDestroy =>
    if stream.autoDestroy then { stream with destroyed := true } else stream.doing tasks
  | .release => stream.scheduleReadRelease tasks
  | .read size caller =>
    match stream.queue with
    | [] => stream.doing (.request :: .retry size caller :: tasks)
    | first :: queue => stream.take size caller first queue tasks
  | .retry size caller =>
    match stream.queue with
    | [] => stream.doing (.endUnlessFlow :: .nothing caller :: tasks)
    | first :: queue => stream.take size caller first queue tasks
  | .nothing .direct => stream.doing tasks
  | .nothing .flow => { stream with flowReading := false }.doing (.maybeEnd :: tasks)
  | .nothing .iterator =>
    if stream.readableEnded then stream.doing tasks
    else { stream with asyncReads := stream.asyncReads + 1 }.doing (.request :: tasks)
  | .give .flow output => ({ stream with flowReading := false }.hand output).waitFor .data
      (.maybeEnd :: .flowNext :: tasks)
  | .give _ output => (stream.hand output).doing tasks
  | .flow =>
    if stream.readableFlowing = some true then
      { stream with flowReading := true }.doing (.read none .flow :: tasks)
    else stream.doing tasks
  | .flowNext =>
    if stream.readableFlowing = some true then stream.doing (.requestIfNeeded :: .flow :: tasks)
    else stream.doing (.flow :: tasks)

def push (bytes : Bytes) : Readable :=
  if stream.ended then { stream with destroyed := true }
  else
    let received := { stream with pushed := stream.pushed ++ bytes }
    if 0 < stream.asyncReads then
      ({ received with
        asyncReads := stream.asyncReads - 1
        consumed := stream.consumed + bytes.length }.hand bytes).doing [.release]
    else if stream.readableFlowing = some true then
      ({ received with consumed := stream.consumed + bytes.length }.hand bytes).waitFor .data
        [.release]
    else { received with
      queue := stream.queue ++ [bytes]
      queueBytes := stream.queueBytes + bytes.length }.doing [.release]

def pushEnd : Readable :=
  if stream.ended then stream
  else { stream with activeReadToken := none, ended := true }.doing [.maybeEnd]

def returned (isPromise : Bool) (callback : ReadCallback) (tasks : List ReadTask)
    (frames : List (ReadCallback × List ReadTask)) : Readable :=
  match callback with
  | .hook token => { stream with
    frames
    hookPromises := if isPromise then stream.hookPromises ++
      [token] else stream.hookPromises }.doing
      tasks
  | _ => { stream with frames }.doing tasks

def threw (callback : ReadCallback) (frames : List (ReadCallback × List ReadTask)) : Readable :=
  match callback with
  | .hook _ => { stream with destroyed := true }
  | _ => { stream with frames }

def finishReadRequest (token : ℕ) : Readable :=
  if stream.activeReadToken = some token then { stream with activeReadToken := none } else stream

def releaseRead (token : ℕ) : Readable :=
  let unscheduled := { stream with readReleaseScheduled := none }
  if stream.activeReadToken = some token ∧ ¬ stream.ended ∧
      (stream.readableFlowing = some true ∨ 0 < stream.asyncReads) then
    (unscheduled.finishReadRequest token).doing [.requestIfNeeded]
  else unscheduled.finishReadRequest token

/-- An operation of somebody outside of the stream, whose code does not run. -/
def called (next : Readable) : Option Readable :=
  match stream.current with
  | some _ => none
  | none => some next

/-- A reaction, which happens when nothing runs and nothing waits. -/
def reacted (next : Readable) : Option Readable :=
  match stream.current, stream.frames with
  | none, [] => some next
  | _, _ => none

/-- The stream after something has happened. -/
def step (event : NodeReadableEvent) : Option Readable :=
  if stream.destroyed then none
  else match event with
    | .tick =>
      match stream.current with
      | some (task :: tasks) => some (stream.perform task tasks)
      | some [] => some { stream with current := none }
      | none => none
    | .push bytes => stream.called (stream.push bytes)
    | .pushEnd => stream.called stream.pushEnd
    | .read size => stream.called
        (if size = some 0 then stream.doing [.request] else stream.doing [.read size .direct])
    | .resume => stream.called ({ stream with readableFlowing := some true }.doing [.flow])
    | .pause => stream.called { stream with readableFlowing := some false }
    | .next => stream.called (stream.doing [.read none .iterator])
    | .destroy => stream.called { stream with destroyed := true }
    | .returned isPromise =>
      match stream.frames with
      | (callback, tasks) :: frames => stream.called
          (stream.returned isPromise callback tasks frames)
      | [] => none
    | .threw =>
      match stream.frames with
      | (callback, _) :: frames => stream.called (stream.threw callback frames)
      | [] => none
    | .hookResolved token =>
      if token ∈ stream.hookPromises then
        stream.reacted
          ({ stream with hookPromises := stream.hookPromises.erase token }.finishReadRequest token)
      else none
    | .hookRejected token =>
      if token ∈ stream.hookPromises then stream.reacted { stream with destroyed := true } else none
    | .released =>
      match stream.readReleaseScheduled with
      | some token => stream.reacted (stream.releaseRead token)
      | none => none

/-- The runs of a stream. -/
def machine (highWaterMark : ℕ) (autoDestroy : Bool) : Machine Readable NodeReadableEvent where
  start := new highWaterMark autoDestroy
  step := step

end Readable

/-- The chunk that a task will hand out. -/
def ReadTask.held : ReadTask → List Bytes
  | .give _ output => [output]
  | _ => []

def ReadTask.weight : ReadTask → ℕ
  | .read _ _ => 1
  | .retry _ _ => 1
  | .nothing _ => 1
  | .give _ _ => 1
  | .flow => 1
  | .flowNext => 1
  | _ => 0

/-- The chunks that some tasks will hand out. -/
def heldOf (tasks : List ReadTask) : List Bytes := tasks.flatMap ReadTask.held

/-- How many reads and loops some tasks belong to. -/
def weightOf (tasks : List ReadTask) : ℕ := (tasks.map ReadTask.weight).sum

theorem heldOf_of_weightOf {tasks : List ReadTask} (none : weightOf tasks = 0) :
    heldOf tasks = [] := by
  induction tasks with
  | nil => rfl
  | cons task tasks ih =>
    unfold weightOf at none
    rw [List.map_cons, List.sum_cons] at none
    have light : task.weight = 0 := by omega
    have rest : weightOf tasks = 0 := by
      unfold weightOf
      omega
    unfold heldOf
    rw [List.flatMap_cons]
    change task.held ++ heldOf tasks = []
    rw [ih rest, List.append_nil]
    cases task with
    | give caller output => cases light
    | _ => rfl

namespace Readable

variable {stream : Readable}

/-- What the activations will hand out, the innermost first. -/
def held (stream : Readable) : List Bytes :=
  heldOf (stream.current.getD []) ++ stream.frames.flatMap fun frame => heldOf frame.2

structure Orderly (stream : Readable) : Prop where
  ordered : stream.handed ++ stream.held.flatten ++ stream.queue.flatten <+: stream.pushed
  whole : stream.ended = false →
    stream.handed ++ stream.held.flatten ++ stream.queue.flatten = stream.pushed
  alone : stream.held.Pairwise fun output other => output = [] ∨ other = []
  finished : stream.endEmitted → stream.ended ∧ stream.queue = []
  ends : stream.ends = if stream.endEmitted then 1 else 0
  counted : stream.queueBytes = (stream.queue.map List.length).sum
  total : stream.pushed.length = stream.consumed + stream.queueBytes
  /-- The activation that runs belongs to one read or loop. -/
  running : ∀ tasks, stream.current = some tasks → weightOf tasks ≤ 1
  /-- So do those that wait; listeners of chunks are not waited for by a read that holds one, and
  listeners of the end only when it is emitted. -/
  waiting : ∀ frame ∈ stream.frames, weightOf frame.2 ≤ 1 ∧
    (frame.1 = .data → heldOf frame.2 = []) ∧ (frame.1 = .finish → stream.endEmitted)

namespace Orderly

variable {before after tasks : List ReadTask} {callback : ReadCallback} {task : ReadTask}
  {caller : ReadCaller} {output : Bytes} {frames : List (ReadCallback × List ReadTask)}

theorem new {highWaterMark : ℕ} {autoDestroy : Bool} : Orderly (new highWaterMark autoDestroy) where
  ordered := List.prefix_refl _
  whole := fun _ => rfl
  alone := .nil
  finished := fun emitted => by cases emitted
  ends := rfl
  counted := rfl
  total := rfl
  running := fun _ none => by cases none
  waiting := fun _ listed => by cases listed

section

variable (orderly : Orderly stream)

include orderly

section

variable (runs : stream.current = some before)

include runs

section

variable (same : heldOf after = heldOf before)

include same

section

variable (light : weightOf after ≤ 1)

include light

theorem doing
    :
    Orderly (stream.doing after) := by
  have held : (stream.doing after).held = stream.held := by
    unfold Readable.held Readable.doing
    rw [runs]
    simp only [Option.getD_some]
    rw [same]
  exact { orderly with
    ordered := by
      rw [held]
      exact orderly.ordered
    whole := by
      rw [held]
      exact orderly.whole
    alone := by
      rw [held]
      exact orderly.alone
    running := fun tasks isTasks => Option.some.inj isTasks ▸ light }

theorem waitFor
    (data : callback = .data → heldOf after = [])
    (finish : callback = .finish → stream.endEmitted) :
    Orderly (stream.waitFor callback after) := by
  have held : (stream.waitFor callback after).held = stream.held := by
    unfold Readable.held Readable.waitFor
    rw [runs]
    simp only [Option.getD_none, Option.getD_some, List.flatMap_cons]
    rw [same]
    rfl
  exact { orderly with
    ordered := by
      rw [held]
      exact orderly.ordered
    whole := by
      rw [held]
      exact orderly.whole
    alone := by
      rw [held]
      exact orderly.alone
    running := fun _ none => by cases none
    waiting := by
      intro frame listed
      rcases List.mem_cons.mp listed with new | before
      · rw [new]
        exact ⟨light, data, finish⟩
      · exact orderly.waiting frame before }

theorem requestRead
    :
    Orderly (stream.requestRead after) := by
  unfold Readable.requestRead
  split
  · exact orderly.doing runs same light
  · have asked : Orderly { stream with
        nextReadToken := stream.nextReadToken + 1
        activeReadToken := some (stream.nextReadToken + 1) } := { orderly with }
    exact asked.waitFor runs same light (fun data => by cases data) (fun finish => by cases finish)

theorem maybeEmitEnd
    :
    Orderly (stream.maybeEmitEnd after) := by
  unfold Readable.maybeEmitEnd
  split
  · exact orderly.doing runs same light
  · rename_i emits
    obtain ⟨isEnd, emits⟩ := not_or.mp emits
    obtain ⟨empty, first⟩ := not_or.mp emits
    have emitted : Orderly { stream with
        endEmitted := true
        readableEnded := true
        asyncReads := 0
        ends := stream.ends + 1 } := { orderly with
      finished := fun _ => ⟨not_not.mp isEnd, not_not.mp empty⟩
      ends := by
        have none := orderly.ends
        rw [if_neg first] at none
        simp [none]
      waiting := fun frame listed =>
        ⟨(orderly.waiting frame listed).1, (orderly.waiting frame listed).2.1, fun _ => rfl⟩ }
    have notData : ReadCallback.finish = .data → heldOf (.autoDestroy :: after) = [] :=
      fun data => by cases data
    have alike : heldOf (.autoDestroy :: after) = heldOf before := same
    have few : weightOf (.autoDestroy :: after) ≤ 1 := (zero_add _).le.trans light
    exact emitted.waitFor runs alike few notData (fun _ => rfl)

theorem scheduleReadRelease
    :
    Orderly (stream.scheduleReadRelease after) := by
  unfold Readable.scheduleReadRelease
  split
  · exact orderly.doing runs same light
  · have scheduled : Orderly { stream with readReleaseScheduled := stream.activeReadToken } :=
      { orderly with }
    exact scheduled.doing runs same light

end

end

end

end

theorem outputOf_append (first : Bytes) (size : Option ℕ) :
    (outputOf first size).1 ++ (outputOf first size).2.toList.flatten = first := by
  unfold outputOf
  dsimp only
  split
  · simp
  · simp

theorem take (orderly : Orderly stream) (runs : stream.current = some (task :: tasks))
    (quiet : task.held = []) (light : weightOf tasks = 0) {first : Bytes} {queue : List Bytes}
    (isQueue : stream.queue = first :: queue) (size : Option ℕ) (caller : ReadCaller)
    (free : stream.held.flatten = [] ∨ (outputOf first size).1 = []) :
    Orderly (stream.take size caller first queue tasks) := by
  have whole := outputOf_append first size
  have lengths : (outputOf first size).1.length +
      ((outputOf first size).2.toList.map List.length).sum = first.length := by
    rw [← List.length_flatten, ← List.length_append, whole]
  have before : stream.held = stream.frames.flatMap fun frame => heldOf frame.2 := by
    unfold Readable.held
    rw [runs]
    simp only [Option.getD_some]
    unfold heldOf
    rw [List.flatMap_cons, quiet]
    change heldOf tasks ++ _ = _
    rw [heldOf_of_weightOf light]
    rfl
  have held : (stream.take size caller first queue tasks).held =
      (outputOf first size).1 :: stream.held := by
    rw [before]
    unfold Readable.held Readable.take Readable.doing
    simp only [Option.getD_some]
    unfold heldOf
    simp only [List.flatMap_cons, ReadTask.held, List.nil_append]
    change [_] ++ heldOf tasks ++ _ = _
    rw [heldOf_of_weightOf light]
    rfl
  have moved : stream.handed ++ (stream.take size caller first queue tasks).held.flatten ++
      (stream.take size caller first queue tasks).queue.flatten =
        stream.handed ++ stream.held.flatten ++ stream.queue.flatten := by
    rw [held, isQueue]
    simp only [Readable.take, Readable.doing, List.flatten_cons, List.flatten_append]
    rcases free with none | nothing
    · rw [none]
      simp only [List.append_nil, List.append_assoc]
      rw [← List.append_assoc (outputOf first size).1, whole]
    · rw [nothing] at whole ⊢
      simp only [List.nil_append] at whole ⊢
      rw [whole]
  have queueBytes := orderly.counted
  rw [isQueue, List.map_cons, List.sum_cons] at queueBytes
  exact { orderly with
    ordered := by
      change stream.handed ++ _ ++ _ <+: _
      rw [moved]
      exact orderly.ordered
    whole := by
      intro going
      change stream.handed ++ _ ++ _ = _
      rw [moved]
      exact orderly.whole going
    alone := by
      rw [held]
      refine List.pairwise_cons.mpr ⟨?_, orderly.alone⟩
      intro other listed
      rcases free with none | nothing
      · exact .inr (List.flatten_eq_nil_iff.mp none other listed)
      · exact .inl nothing
    finished := by
      intro emitted
      have empty := (orderly.finished emitted).2
      rw [isQueue] at empty
      cases empty
    counted := by
      simp only [Readable.take, Readable.doing, List.map_append, List.sum_append]
      omega
    total := by
      have total := orderly.total
      simp only [Readable.take, Readable.doing]
      omega
    running := by
      intro others isTasks
      rw [← Option.some.inj isTasks]
      unfold weightOf at light ⊢
      simp only [List.map_cons, List.sum_cons, ReadTask.weight]
      omega }

theorem held_give (runs : stream.current = some (.give caller output :: tasks))
    (light : weightOf tasks = 0) :
    stream.held = output :: stream.frames.flatMap fun frame => heldOf frame.2 := by
  unfold Readable.held
  rw [runs]
  simp only [Option.getD_some]
  unfold heldOf
  rw [List.flatMap_cons]
  change [output] ++ heldOf tasks ++ _ = _
  rw [heldOf_of_weightOf light]
  rfl

section

variable (orderly : Orderly stream)

include orderly

theorem hand
    (runs : stream.current = some (.give caller output :: tasks)) (light : weightOf tasks = 0)
    (quiet : heldOf after = []) (few : weightOf after ≤ 1) :
    Orderly ((stream.hand output).doing after) := by
  have before := held_give runs light
  have held : ((stream.hand output).doing after).held =
      stream.frames.flatMap fun frame => heldOf frame.2 := by
    unfold Readable.held Readable.doing Readable.hand
    simp only [Option.getD_some]
    rw [quiet]
    rfl
  have moved : stream.handed ++ output ++ ((stream.hand output).doing after).held.flatten =
      stream.handed ++ stream.held.flatten := by
    rw [held, before, List.flatten_cons, List.append_assoc]
  exact { orderly with
    ordered := by
      change stream.handed ++ output ++ _ ++ _ <+: _
      rw [moved]
      exact orderly.ordered
    whole := by
      intro going
      change stream.handed ++ output ++ _ ++ _ = _
      rw [moved]
      exact orderly.whole going
    alone := by
      have alone := orderly.alone
      rw [before] at alone
      rw [held]
      exact alone.tail
    running := fun others isTasks => Option.some.inj isTasks ▸ few }

/-- An activation may do its next task. -/
theorem perform (runs : stream.current = some (task :: tasks))
    (free : ∀ size caller first queue, task = .read size caller ∨ task = .retry size caller →
      stream.queue = first :: queue → stream.held.flatten = [] ∨ (outputOf first size).1 = []) :
    Orderly (stream.perform task tasks) := by
  have weight : task.weight + weightOf tasks ≤ 1 := by
    have few := orderly.running _ runs
    unfold weightOf at few ⊢
    rw [List.map_cons, List.sum_cons] at few
    exact few
  have light : weightOf tasks ≤ 1 := by omega
  cases task with
  | request => exact orderly.requestRead runs rfl light
  | requestIfNeeded =>
    unfold Readable.perform
    dsimp only
    split
    · exact orderly.requestRead runs rfl light
    · exact orderly.doing runs rfl light
  | requestUnlessFlow =>
    unfold Readable.perform
    dsimp only
    split
    · exact orderly.doing runs rfl light
    · exact orderly.requestRead runs rfl light
  | maybeEnd => exact orderly.maybeEmitEnd runs rfl light
  | endUnlessFlow =>
    unfold Readable.perform
    dsimp only
    split
    · exact orderly.doing runs rfl light
    · exact orderly.maybeEmitEnd runs rfl light
  | autoDestroy =>
    unfold Readable.perform
    dsimp only
    split
    · exact { orderly with }
    · exact orderly.doing runs rfl light
  | release => exact orderly.scheduleReadRelease runs rfl light
  | read size caller =>
    have none : weightOf tasks = 0 := by
      change 1 + _ ≤ 1 at weight
      omega
    unfold Readable.perform
    dsimp only
    cases isQueue : stream.queue with
    | nil =>
      have same : heldOf (.request :: .retry size caller :: tasks) =
        heldOf (.read size caller :: tasks) := rfl
      have few : weightOf (.request :: .retry size caller :: tasks) ≤ 1 :=
        (zero_add _).le.trans weight
      exact orderly.doing runs same few
    | cons first queue =>
      exact orderly.take runs rfl none isQueue size caller
        (free size caller first queue (.inl rfl) isQueue)
  | retry size caller =>
    have none : weightOf tasks = 0 := by
      change 1 + _ ≤ 1 at weight
      omega
    unfold Readable.perform
    dsimp only
    cases isQueue : stream.queue with
    | nil =>
      have same : heldOf (.endUnlessFlow :: .nothing caller :: tasks) =
        heldOf (.retry size caller :: tasks) := rfl
      have few : weightOf (.endUnlessFlow :: .nothing caller :: tasks) ≤ 1 :=
        (zero_add _).le.trans weight
      exact orderly.doing runs same few
    | cons first queue =>
      exact orderly.take runs rfl none isQueue size caller
        (free size caller first queue (.inr rfl) isQueue)
  | nothing caller =>
    cases caller with
    | direct => exact orderly.doing runs rfl light
    | flow =>
      have read : Orderly { stream with flowReading := false } := { orderly with }
      have few : weightOf (.maybeEnd :: tasks) ≤ 1 := (zero_add _).le.trans light
      have same : heldOf (.maybeEnd :: tasks) = heldOf (.nothing .flow :: tasks) := rfl
      exact read.doing runs same few
    | iterator =>
      unfold Readable.perform
      dsimp only
      split
      · exact orderly.doing runs rfl light
      · have waits : Orderly { stream with asyncReads := stream.asyncReads + 1 } := { orderly with }
        have few : weightOf (.request :: tasks) ≤ 1 := (zero_add _).le.trans light
        have same : heldOf (.request :: tasks) = heldOf (.nothing .iterator :: tasks) := rfl
        exact waits.doing runs same few
  | give caller output =>
    have none : weightOf tasks = 0 := by
      change 1 + _ ≤ 1 at weight
      omega
    have quiet := heldOf_of_weightOf none
    cases caller with
    | flow =>
      have read : Orderly { stream with flowReading := false } := { orderly with }
      have few : weightOf (.maybeEnd :: .flowNext :: tasks) ≤ 1 := (zero_add _).le.trans weight
      have silent : heldOf (.maybeEnd :: .flowNext :: tasks) = [] := quiet
      have notFinish : ReadCallback.data = .finish → stream.endEmitted := fun finish => by
        cases finish
      exact (read.hand runs none silent few).waitFor rfl rfl few (fun _ => silent) notFinish
    | _ => exact orderly.hand runs none quiet light
  | flow =>
    unfold Readable.perform
    dsimp only
    split
    · have reads : Orderly { stream with flowReading := true } := { orderly with }
      have same : heldOf (.read none .flow :: tasks) = heldOf (.flow :: tasks) := rfl
      exact reads.doing runs same weight
    · exact orderly.doing runs rfl light
  | flowNext =>
    unfold Readable.perform
    dsimp only
    split
    · have few : weightOf (.requestIfNeeded :: .flow :: tasks) ≤ 1 := (zero_add _).le.trans weight
      have same : heldOf (.requestIfNeeded :: .flow :: tasks) = heldOf (.flowNext :: tasks) := rfl
      exact orderly.doing runs same few
    · have same : heldOf (.flow :: tasks) = heldOf (.flowNext :: tasks) := rfl
      exact orderly.doing runs same weight

theorem begin (idle : stream.current = none) (quiet : heldOf tasks = [])
    (few : weightOf tasks ≤ 1) : Orderly (stream.doing tasks) := by
  have ready : Orderly { stream with current := some [] } := { orderly with
    ordered := by
      have ordered := orderly.ordered
      unfold Readable.held at ordered ⊢
      rw [idle] at ordered
      exact ordered
    whole := by
      have whole := orderly.whole
      unfold Readable.held at whole ⊢
      rw [idle] at whole
      exact whole
    alone := by
      have alone := orderly.alone
      unfold Readable.held at alone ⊢
      rw [idle] at alone
      exact alone
    running := fun tasks isTasks => by
      rw [← Option.some.inj isTasks]
      exact Nat.zero_le _ }
  exact ready.doing rfl quiet few

theorem pass (going : stream.ended = false) (bytes : Bytes) (asyncReads : ℕ)
    (free : bytes = [] ∨ (stream.held.flatten = [] ∧ stream.queue.flatten = [])) :
    Orderly { stream with
      asyncReads
      pushed := stream.pushed ++ bytes
      consumed := stream.consumed + bytes.length
      handed := stream.handed ++ bytes } := by
  have whole : stream.handed ++ bytes ++ stream.held.flatten ++ stream.queue.flatten =
      stream.pushed ++ bytes := by
    have before := orderly.whole going
    rcases free with none | ⟨noHeld, noQueue⟩
    · rw [none, List.append_nil, List.append_nil]
      exact before
    · rw [noHeld, noQueue, List.append_nil, List.append_nil] at before ⊢
      rw [before]
  exact { orderly with
    ordered := by
      change stream.handed ++ bytes ++ stream.held.flatten ++ _ <+: _
      rw [whole]
    whole := fun _ => whole
    total := by
      have total := orderly.total
      rw [List.length_append]
      dsimp only
      omega }

theorem push (idle : stream.current = none) (bytes : Bytes)
    (free : 0 < stream.asyncReads ∨ stream.readableFlowing = some true →
      bytes = [] ∨ (stream.held.flatten = [] ∧ stream.queue.flatten = [])) :
    Orderly (stream.push bytes) := by
  unfold Readable.push
  by_cases isEnd : stream.ended = true
  · rw [if_pos isEnd]
    exact { orderly with }
  · rw [if_neg isEnd]
    have going : stream.ended = false := (Bool.not_eq_true _).mp isEnd
    dsimp only
    split
    · rename_i waits
      have passed := orderly.pass going bytes (stream.asyncReads - 1) (free (.inl waits))
      exact passed.begin idle rfl (by decide)
    · split
      · rename_i flows
        have passed := orderly.pass going bytes stream.asyncReads (free (.inr flows))
        have few : weightOf [.release] ≤ 1 := by decide
        have notFinish : ReadCallback.data = .finish → stream.endEmitted := fun finish => by
          cases finish
        exact (passed.begin idle rfl few).waitFor rfl rfl few (fun _ => rfl) notFinish
      · have whole : stream.handed ++ stream.held.flatten ++ (stream.queue ++ [bytes]).flatten =
            stream.pushed ++ bytes := by
          rw [← orderly.whole going]
          simp
        have queued : Orderly { stream with
            pushed := stream.pushed ++ bytes
            queue := stream.queue ++ [bytes]
            queueBytes := stream.queueBytes + bytes.length } := { orderly with
          ordered := by
            change stream.handed ++ stream.held.flatten ++ _ <+: _
            rw [whole]
          whole := fun _ => whole
          finished := fun emitted => by
            have ended := (orderly.finished emitted).1
            rw [going] at ended
            cases ended
          counted := by
            simp [orderly.counted]
          total := by
            have total := orderly.total
            rw [List.length_append]
            dsimp only
            omega }
        exact queued.begin idle rfl (by decide)

theorem pushEnd (idle : stream.current = none) : Orderly stream.pushEnd := by
  unfold Readable.pushEnd
  split
  · exact orderly
  · have isEnd : Orderly { stream with activeReadToken := none, ended := true } := { orderly with
      whole := fun going => by cases going
      finished := fun emitted => ⟨rfl, (orderly.finished emitted).2⟩ }
    exact isEnd.begin idle rfl (by decide)

end

theorem held_of_frames (idle : stream.current = none)
    (innermost : stream.frames = (callback, tasks) :: frames) :
    stream.held = heldOf tasks ++ frames.flatMap fun frame => heldOf frame.2 := by
  unfold Readable.held
  rw [idle, innermost]
  rfl

theorem goOn (orderly : Orderly stream) (idle : stream.current = none)
    (innermost : stream.frames = (callback, tasks) :: frames) :
    Orderly ({ stream with frames }.doing tasks) := by
  have held : ({ stream with frames }.doing tasks).held = stream.held :=
    (held_of_frames idle innermost).symm
  exact { orderly with
    ordered := by
      rw [held]
      exact orderly.ordered
    whole := by
      rw [held]
      exact orderly.whole
    alone := by
      rw [held]
      exact orderly.alone
    running := fun others isTasks => by
      rw [← Option.some.inj isTasks]
      exact (orderly.waiting (callback, tasks) (innermost ▸ List.mem_cons_self)).1
    waiting := fun frame listed =>
      orderly.waiting frame (innermost ▸ List.mem_cons_of_mem _ listed) }

theorem threw (orderly : Orderly stream) (idle : stream.current = none)
    (innermost : stream.frames = (callback, tasks) :: frames) :
    Orderly (stream.threw callback frames) := by
  have held := held_of_frames idle innermost
  have after : ({ stream with frames } : Readable).held =
      frames.flatMap fun frame => heldOf frame.2 := by
    unfold Readable.held
    rw [idle]
    rfl
  have rest : ∀ frame ∈ frames, weightOf frame.2 ≤ 1 ∧
      (frame.1 = .data → heldOf frame.2 = []) ∧ (frame.1 = .finish → stream.endEmitted) :=
    fun frame listed => orderly.waiting frame (innermost ▸ List.mem_cons_of_mem _ listed)
  have first := orderly.waiting (callback, tasks) (innermost ▸ List.mem_cons_self)
  have alone := orderly.alone
  rw [held] at alone
  unfold Readable.threw
  cases callback with
  | hook token => exact { orderly with }
  | data =>
    have quiet : heldOf tasks = [] := first.2.1 rfl
    have same : ({ stream with frames } : Readable).held = stream.held := by
      rw [after, held, quiet, List.nil_append]
    exact { orderly with
      ordered := by
        rw [same]
        exact orderly.ordered
      whole := by
        rw [same]
        exact orderly.whole
      alone := by
        rw [same]
        exact orderly.alone
      waiting := rest }
  | finish =>
    obtain ⟨isEnd, empty⟩ := orderly.finished (first.2.2 rfl)
    have ordered := orderly.ordered
    rw [held, empty] at ordered
    exact { orderly with
      ordered := by
        -- the read that ended the stream loses its chunk, the last one
        rw [after, empty]
        by_cases quiet : (heldOf tasks).flatten = []
        · rw [List.flatten_append, quiet, List.nil_append] at ordered
          exact ordered
        · have others : (frames.flatMap fun frame => heldOf frame.2).flatten = [] := by
            obtain ⟨output, isOutput, some'⟩ : ∃ output ∈ heldOf tasks, output ≠ [] := by
              by_contra none
              apply quiet
              apply List.flatten_eq_nil_iff.mpr
              intro output listed
              by_contra some'
              exact none ⟨output, listed, some'⟩
            apply List.flatten_eq_nil_iff.mpr
            intro other listed
            have pair := (List.pairwise_append.mp alone).2.2 output isOutput other listed
            exact pair.resolve_left some'
          rw [others, List.flatten_nil, List.append_nil, List.append_nil]
          rw [List.flatten_nil, List.append_nil] at ordered
          exact (List.prefix_append _ _).trans ordered
      whole := fun going => by
        change stream.ended = false at going
        rw [isEnd] at going
        cases going
      alone := by
        rw [after]
        exact (List.pairwise_append.mp alone).2.1
      waiting := rest }

end Orderly

/-- A step lets no bytes overtake others. -/
def careful (stream : Readable) : NodeReadableEvent → Bool
  | .push bytes =>
    !(decide (0 < stream.asyncReads) || stream.readableFlowing = some true) || bytes = [] ||
      (stream.held.flatten = [] && stream.queue.flatten = [])
  | .tick =>
    match stream.current, stream.queue with
    | some (.read size _ :: _), first :: _ =>
      stream.held.flatten = [] || (outputOf first size).1 = []
    | some (.retry size _ :: _), first :: _ =>
      stream.held.flatten = [] || (outputOf first size).1 = []
    | _, _ => true
  | _ => true

variable {after next : Readable}

theorem careful_tick {task : ReadTask} {tasks : List ReadTask}
    (runs : stream.current = some (task :: tasks)) (care : stream.careful .tick = true)
    (size : Option ℕ) (caller : ReadCaller) (first : Bytes) (queue : List Bytes)
    (isRead : task = .read size caller ∨ task = .retry size caller)
    (isQueue : stream.queue = first :: queue) :
    stream.held.flatten = [] ∨ (outputOf first size).1 = [] := by
  unfold careful at care
  rw [runs, isQueue] at care
  rcases isRead with read | retry
  · rw [read] at care
    simpa using care
  · rw [retry] at care
    simpa using care

theorem idle_of_called (called : stream.called after = some next) :
    stream.current = none ∧ after = next := by
  unfold Readable.called at called
  cases runs : stream.current with
  | some tasks =>
    rw [runs] at called
    cases called
  | none =>
    rw [runs] at called
    exact ⟨rfl, Option.some.inj called⟩

theorem idle_of_reacted (reacted : stream.reacted after = some next) :
    stream.current = none ∧ after = next := by
  unfold Readable.reacted at reacted
  split at reacted
  · rename_i idle _
    exact ⟨idle, Option.some.inj reacted⟩
  · cases reacted

theorem Orderly.finishReadRequest (orderly : Orderly stream) (token : ℕ) :
    Orderly (stream.finishReadRequest token) := by
  unfold Readable.finishReadRequest
  split
  · exact { orderly with }
  · exact orderly

theorem Orderly.step (orderly : Orderly stream) {event : NodeReadableEvent}
    (care : stream.careful event = true) (stepped : stream.step event = some next) :
    Orderly next := by
  unfold Readable.step at stepped
  by_cases destroyed : stream.destroyed = true
  · rw [if_pos destroyed] at stepped
    cases stepped
  · rw [if_neg destroyed] at stepped
    cases event with
    | tick =>
      dsimp only at stepped
      split at stepped
      · rename_i task tasks runs
        rw [← Option.some.inj stepped]
        exact orderly.perform runs (careful_tick runs care)
      · rename_i runs
        rw [← Option.some.inj stepped]
        have same : ({ stream with current := none } : Readable).held = stream.held := by
          unfold Readable.held
          rw [runs]
          rfl
        exact { orderly with
          ordered := by
            rw [same]
            exact orderly.ordered
          whole := by
            rw [same]
            exact orderly.whole
          alone := by
            rw [same]
            exact orderly.alone
          running := fun _ none => by cases none }
      · cases stepped
    | push bytes =>
      obtain ⟨idle, same⟩ := idle_of_called stepped
      rw [← same]
      apply orderly.push idle
      intro direct
      unfold careful at care
      have isDirect :
        (decide (0 < stream.asyncReads) || decide (stream.readableFlowing = some true)) =
          true := by
        rcases direct with waits | flows
        · simp [waits]
        · simp [flows]
      rw [isDirect] at care
      simpa using care
    | pushEnd =>
      obtain ⟨idle, same⟩ := idle_of_called stepped
      rw [← same]
      exact orderly.pushEnd idle
    | read size =>
      obtain ⟨idle, same⟩ := idle_of_called stepped
      rw [← same]
      split
      · exact orderly.begin idle rfl (by decide)
      · have few : weightOf [.read size .direct] ≤ 1 := le_rfl
        exact orderly.begin idle rfl few
    | resume =>
      obtain ⟨idle, same⟩ := idle_of_called stepped
      rw [← same]
      have flowing : Orderly { stream with readableFlowing := some true } := { orderly with }
      exact flowing.begin idle rfl (by decide)
    | next =>
      obtain ⟨idle, same⟩ := idle_of_called stepped
      rw [← same]
      exact orderly.begin idle rfl (by decide)
    | returned isPromise =>
      dsimp only at stepped
      split at stepped
      · rename_i callback tasks frames innermost
        obtain ⟨idle, same⟩ := idle_of_called stepped
        have went := orderly.goOn idle innermost
        rw [← same]
        cases callback with
        | hook token => exact { went with }
        | data => exact went
        | finish => exact went
      · cases stepped
    | threw =>
      dsimp only at stepped
      split at stepped
      · rename_i callback tasks frames innermost
        obtain ⟨idle, same⟩ := idle_of_called stepped
        rw [← same]
        exact orderly.threw idle innermost
      · cases stepped
    | hookResolved token =>
      dsimp only at stepped
      split at stepped
      · obtain ⟨_, same⟩ := idle_of_reacted stepped
        rw [← same]
        apply Orderly.finishReadRequest
        exact { orderly with }
      · cases stepped
    | hookRejected token =>
      dsimp only at stepped
      split at stepped
      · obtain ⟨_, same⟩ := idle_of_reacted stepped
        rw [← same]
        exact { orderly with }
      · cases stepped
    | released =>
      dsimp only at stepped
      split at stepped
      · rename_i token _
        obtain ⟨idle, same⟩ := idle_of_reacted stepped
        have unscheduled : Orderly { stream with readReleaseScheduled := none } :=
          { orderly with }
        have finished := unscheduled.finishReadRequest token
        rw [← same]
        unfold Readable.releaseRead
        dsimp only
        split
        · apply finished.begin _ rfl (by decide)
          unfold Readable.finishReadRequest
          split
          · exact idle
          · exact idle
        · exact finished
      · cases stepped
    | _ =>
      obtain ⟨idle, same⟩ := idle_of_called stepped
      rw [← same]
      exact { orderly with }

structure KeepsOrder (stream : Readable) : Prop where
  order : stream.handed <+: stream.pushed
  length : stream.queueBytes = stream.pushed.length - stream.consumed ∧
    stream.consumed ≤ stream.pushed.length
  once : stream.ends ≤ 1
  finished : 0 < stream.ends → stream.ended ∧ stream.consumed = stream.pushed.length

theorem Orderly.keepsOrder (orderly : Orderly stream) : KeepsOrder stream where
  order := by
    have ordered := orderly.ordered
    rw [List.append_assoc] at ordered
    exact (List.prefix_append _ _).trans ordered
  length := by
    have total := orderly.total
    omega
  once := by
    rw [orderly.ends]
    split
    · exact le_rfl
    · exact zero_le_one
  finished := by
    intro some'
    have emitted : stream.endEmitted = true := by
      by_contra none
      have ends := orderly.ends
      rw [if_neg none] at ends
      omega
    obtain ⟨isEnd, empty⟩ := orderly.finished emitted
    have counted := orderly.counted
    rw [empty] at counted
    have total := orderly.total
    rw [counted] at total
    exact ⟨isEnd, total.symm⟩

variable {highWaterMark : ℕ} {autoDestroy : Bool} {events : List NodeReadableEvent}

/-- In every run whose steps let no bytes overtake others, a stream keeps the order until it is
destroyed, which ends the run. -/
theorem readable_keepsOrder (reached : (machine highWaterMark autoDestroy).ReachesWhen
    (fun stream event => stream.careful event = true) events stream) : KeepsOrder stream := by
  apply Orderly.keepsOrder
  apply reached.invariant
  · exact Orderly.new
  · intro state event next orderly care stepped
    exact orderly.step care stepped

def pausesAndPushes : List NodeReadableEvent :=
  [.push [1], .tick, .tick, .push [2], .tick, .tick, .resume, .tick, .tick, .tick, .tick, .tick,
    .pause, .push [3], .tick, .tick, .returned false]

/-- The stream has handed out the first chunk. -/
theorem readable_keepsOrder_pausesAndPushes : ∃ stream,
    (machine 16 true).ReachesWhen (fun stream event => stream.careful event = true)
      pausesAndPushes stream ∧ stream.destroyed = false ∧ stream.handed = [1] ∧
        stream.pushed = [1, 2, 3] ∧ KeepsOrder stream := by
  have run : (((machine 16 true).guarded fun stream event => stream.careful event = true).run
      pausesAndPushes).map (fun stream => (stream.destroyed, stream.handed, stream.pushed)) =
        some (false, [1], [1, 2, 3]) := by
    decide +kernel
  obtain ⟨stream, reached, fields⟩ := Machine.exists_of_guarded_run run
  obtain ⟨alive, fields⟩ := Prod.mk.inj fields
  obtain ⟨handed, pushed⟩ := Prod.mk.inj fields
  exact ⟨stream, reached, alive, handed, pushed, readable_keepsOrder reached⟩

def pushesInListener : List NodeReadableEvent :=
  [.push [1], .tick, .tick, .push [2], .tick, .tick, .resume, .tick, .tick, .tick, .tick, .tick,
    .push [3]]

/-- A chunk that a listener pushes overtakes the chunk that is in the queue. -/
theorem not_readable_keepsOrder : ¬ ∀ (events : List NodeReadableEvent) (stream : Readable),
    (machine 16 true).Reaches events stream → stream.destroyed = false → KeepsOrder stream := by
  intro keeps
  have run : ((machine 16 true).run pushesInListener).map (fun stream =>
      (stream.destroyed, stream.handed, stream.pushed)) = some (false, [1, 3], [1, 2, 3]) := by
    decide +kernel
  obtain ⟨stream, reached, fields⟩ := Machine.exists_of_run run
  obtain ⟨alive, fields⟩ := Prod.mk.inj fields
  obtain ⟨handed, pushed⟩ := Prod.mk.inj fields
  have order := (keeps pushesInListener stream reached alive).order
  rw [handed, pushed] at order
  exact absurd order (by decide)

end Readable

end Holonomy.Streams
