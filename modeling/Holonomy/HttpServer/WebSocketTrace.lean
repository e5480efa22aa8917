import Holonomy.Foundation.Machine
import Holonomy.Network.Rules

/-!
# What a socket emits

A socket that was terminated or whose stream or closing request is over emitted one close and
nothing behind it, as long as no error and no message comes after the close and no listener of an
error throws where the close is still to come. Callbacks and the buffered amount are right anyway.
-/

namespace Holonomy.HttpServer

open Foundation Network

/-! ## Accepted sockets

A socket reads its native stream, sends one message after another and closes behind the last one.
-/

/-- The bounds of a socket. -/
structure WebSocketLimits where
  maxWebSocketMessageBytes : ℕ
  maxWebSocketBufferedBytes : ℕ

/-- How the socket is. -/
inductive ReadyState where
  | opened
  | closing
  | closed
deriving DecidableEq

/-- A binary part of an event. -/
structure NativeBinary where
  handle : Text
  data : List UInt8

/-- What the native stream hands out. -/
structure NativeChunk where
  resources : ℕ
  value : Option JsonValue
  binary : Option (List NativeBinary)

/-- How the native stream settles a read. -/
inductive ReadResult where
  | event (chunk : NativeChunk)
  | done (chunk : Option NativeChunk)
  | failed

/-- What the socket makes of a read. -/
inductive ReadOutcome where
  | message (data : List UInt8) (isBinary : Bool)
  | close (code : ℤ) (reason : Text)
  | ended
  | invalid
deriving DecidableEq

/-- What the socket emits. -/
inductive Emitted where
  | message (data : List UInt8) (isBinary : Bool)
  | error
  | close (code : ℤ) (reason : Text)
deriving DecidableEq

/-- What is left to do when a callback or a listener returns. -/
inductive Frame where
  | completion (failed : Bool)
  | sendError
  | closeError
  | message
  | pumpError
  /-- The listeners of the close, which a send that failed may have caused. -/
  | closed (inSend : Bool)
deriving DecidableEq

inductive Pump where
  | unopened
  | reading
  | stopped
deriving DecidableEq

/-- A send whose callback has not run. -/
structure Send where
  id : ℕ
  size : ℕ
deriving DecidableEq

/-- A socket, what it has left to do, and the history. -/
structure WebSocket where
  readyState : ReadyState
  closeEmitted : Bool
  bufferedAmount : ℤ
  /-- The sends whose callbacks have not run, in order. -/
  pending : List Send
  tailRejected : Bool
  pump : Pump
  closeQueued : Option (ℤ × Text)
  closeSettled : Bool
  /-- The functions that wait for a callback or a listener, the innermost first. -/
  frames : List Frame
  sent : ℕ
  called : List ℕ
  terminated : Bool
  trace : List Emitted
deriving DecidableEq

/-- What can happen. -/
inductive SocketEvent where
  | opened (throws : Bool)
  | send (size : ℕ)
  | close (code : JsonValue) (reason : Text)
  | terminate
  | sendSettled (failed : Bool)
  | closeSettled (failed : Bool)
  | pumped (result : ReadResult)
  | returned (throws : Bool)

/-- A code that a socket may be closed with. -/
def closeCode? (value : JsonValue) : Option ℤ :=
  (safeInteger? value).bind fun code =>
    if code < 1000 ∨ 4999 < code then none else some code

def kindOf (record : JsonValue) : Option Text :=
  match memberOf record (js "kind") with
  | some (.string kind) => some kind
  | _ => none

def codeOf (record : JsonValue) : JsonValue :=
  match memberOf record (js "code") with
  | some (.number code) => .number code
  | _ => .number 1000

def reasonOf (record : JsonValue) : Text :=
  match memberOf record (js "reason") with
  | some (.string reason) => reason
  | _ => []

/-- The close that an event announces. -/
def closeOf (record : JsonValue) (binary : List NativeBinary) : ReadOutcome :=
  match closeCode? (codeOf record) with
  | none => .invalid
  | some code =>
    if 123 < utf8ByteLength (reasonOf record) ∨ binary.length ≠ 0 then .invalid
    else .close code (reasonOf record)

/-- The message that an event carries. -/
def messageOf (limits : WebSocketLimits) (record : JsonValue) (binary : List NativeBinary) :
    ReadOutcome :=
  match memberOf record (js "isBinary"), binary with
  | some (.boolean isBinary), [part] =>
    if kindOf record ≠ some (js "message") ∨ part.handle ≠ js "message" ∨
        limits.maxWebSocketMessageBytes < part.data.length then .invalid
    else .message part.data isBinary
  | _, _ => .invalid

def eventOutcome (limits : WebSocketLimits) (chunk : NativeChunk) : ReadOutcome :=
  if chunk.resources ≠ 0 then .invalid
  else
    match chunk.value with
    | some (.object members) =>
      let record := JsonValue.object members
      let binary := chunk.binary.getD []
      if kindOf record = some (js "close") then closeOf record binary
      else messageOf limits record binary
    | _ => .invalid

/-- What the socket makes of the end of the stream. -/
def doneOutcome (chunk : Option NativeChunk) : ReadOutcome :=
  match chunk with
  | none => .ended
  | some chunk =>
    if chunk.resources ≠ 0 ∨ (chunk.binary.getD []).length ≠ 0 ∨ chunk.value.isSome then .invalid
    else .ended

def ReadResult.outcome (limits : WebSocketLimits) : ReadResult → ReadOutcome
  | .event chunk => eventOutcome limits chunk
  | .done chunk => doneOutcome chunk
  | .failed => .invalid

namespace WebSocket

/-- A socket that was just made. -/
def start : WebSocket where
  readyState := .opened
  closeEmitted := false
  bufferedAmount := 0
  pending := []
  tailRejected := false
  pump := .unopened
  closeQueued := none
  closeSettled := false
  frames := []
  sent := 0
  called := []
  terminated := false
  trace := []

/-- Emit to listeners, with something left to do. -/
def emit (socket : WebSocket) (emitted : Emitted) (frame : Frame) : WebSocket :=
  { socket with trace := socket.trace ++ [emitted], frames := frame :: socket.frames }

def finishClose (socket : WebSocket) (code : ℤ) (reason : Text) (inSend : Bool) : WebSocket :=
  if socket.closeEmitted then socket
  else
    { socket with closeEmitted := true, readyState := .closed }.emit (.close code reason)
      (.closed inSend)

def send (limits : WebSocketLimits) (socket : WebSocket) (size : ℕ) : WebSocket :=
  if socket.readyState ≠ .opened then socket
  else if limits.maxWebSocketMessageBytes < size ∨
      (limits.maxWebSocketBufferedBytes : ℤ) < socket.bufferedAmount + size then socket
  else
    { socket with
      bufferedAmount := socket.bufferedAmount + size
      pending := socket.pending ++ [⟨socket.sent, size⟩]
      sent := socket.sent + 1 }

/-- Queue the closing request behind the sends. -/
def close (socket : WebSocket) (code : JsonValue) (reason : Text) : WebSocket :=
  if socket.readyState = .closed ∨ socket.readyState = .closing then socket
  else
    match closeCode? code with
    | none => socket
    | some code =>
      if 123 < utf8ByteLength reason then socket
      else { socket with readyState := .closing, closeQueued := some (code, reason) }

def terminate (socket : WebSocket) : WebSocket :=
  { socket with terminated := true }.finishClose 1006 [] false

/-- The reading of the stream failed. -/
def pumpFails (socket : WebSocket) : WebSocket :=
  let stopped := { socket with pump := .stopped }
  if socket.readyState ≠ .closed then stopped.emit .error .pumpError
  else stopped.finishClose 1006 [] false

/-- The stream settled a read. -/
def read (socket : WebSocket) : ReadOutcome → WebSocket
  | .message data isBinary => socket.emit (.message data isBinary) .message
  | .close code reason => { socket with pump := .stopped }.finishClose code reason false
  | .ended => { socket with pump := .stopped }.finishClose 1000 [] false
  | .invalid => socket.pumpFails

def settleSend (socket : WebSocket) (first : Send) (rest : List Send) (failed : Bool) :
    WebSocket :=
  { socket with
    bufferedAmount := socket.bufferedAmount - first.size
    pending := rest
    called := socket.called ++ [first.id]
    frames := .completion failed :: socket.frames }

/-- The closing request is settled. -/
def settleClose (socket : WebSocket) (code : ℤ) (reason : Text) (failed : Bool) : WebSocket :=
  let settled := { socket with closeSettled := true }
  if failed then settled.emit .error .closeError else settled.finishClose code reason false

/-- A callback or a listener returned, and its caller goes on. -/
def goOn (socket : WebSocket) (throws : Bool) : Frame → WebSocket
  | .completion failed =>
    if throws then { socket with tailRejected := true }
    else if failed then socket.emit .error .sendError
    else { socket with tailRejected := false }
  | .sendError =>
    if throws then { socket with tailRejected := true }
    else { socket with tailRejected := false }.finishClose 1006 [] true
  | .closeError => if throws then socket else socket.finishClose 1006 [] false
  | .message => if throws then socket.pumpFails else socket
  | .pumpError => if throws then socket else socket.finishClose 1006 [] false
  | .closed inSend => if throws && inSend then { socket with tailRejected := true } else socket

/-- The state after an event. While a callback or a listener runs, it may only call the socket. -/
def step (limits : WebSocketLimits) (socket : WebSocket) : SocketEvent → Option WebSocket
  | .opened throws =>
    if socket.pump = .unopened then
      some (if throws then socket.pumpFails else { socket with pump := .reading })
    else none
  | .send size => some (socket.send limits size)
  | .close code reason => some (socket.close code reason)
  | .terminate => some socket.terminate
  | .sendSettled failed =>
    match socket.frames, socket.pending with
    | [], first :: rest =>
      if socket.tailRejected && !failed then none else some (socket.settleSend first rest failed)
    | _, _ => none
  | .closeSettled failed =>
    match socket.frames, socket.pending, socket.closeQueued with
    | [], [], some (code, reason) =>
      if socket.closeSettled || (socket.tailRejected && !failed) then none
      else some (socket.settleClose code reason failed)
    | _, _, _ => none
  | .pumped result =>
    match socket.frames with
    | [] =>
      if socket.pump = .reading then some (socket.read (result.outcome limits)) else none
    | _ => none
  | .returned throws =>
    match socket.frames with
    | [] => none
    | frame :: rest => some ({ socket with frames := rest }.goOn throws frame)

end WebSocket

def webSocket (limits : WebSocketLimits) : Machine WebSocket SocketEvent where
  start := .start
  step := WebSocket.step limits

def Emitted.isClose : Emitted → Bool
  | .close _ _ => true
  | _ => false

namespace WebSocket

/-- What a user of a socket may rely on. -/
structure WellFormedTrace (socket : WebSocket) : Prop where
  closesOnce : socket.trace.countP Emitted.isClose ≤ 1
  closesTerminated : socket.terminated = true → socket.trace.countP Emitted.isClose = 1
  closesOver : socket.frames = [] → socket.pump = .stopped ∨ socket.closeSettled = true →
    socket.trace.countP Emitted.isClose = 1
  closesLast : ∀ before code reason after,
    socket.trace = before ++ .close code reason :: after → after = []
  callsInOrder : socket.called ++ socket.pending.map Send.id = List.range socket.sent
  buffers : socket.bufferedAmount = ((socket.pending.map Send.size).sum : ℕ)

def isOrderly (limits : WebSocketLimits) (socket : WebSocket) : SocketEvent → Bool
  | .pumped result =>
    match result.outcome limits with
    | .message _ _ => !socket.closeEmitted
    | _ => true
  | .closeSettled failed => !failed || !socket.closeEmitted
  | .returned throws =>
    match socket.frames.head? with
    | some (.completion failed) => throws || !failed || !socket.closeEmitted
    | some .closeError => !throws || socket.closeEmitted
    | some .pumpError => !throws || socket.closeEmitted
    | _ => true
  | _ => true

/-- What orderly events keep, but for the closes to come. -/
structure Sound (socket : WebSocket) : Prop where
  closedState : socket.readyState = .closed ↔ socket.closeEmitted = true
  silent : socket.closeEmitted = false → ∀ emitted ∈ socket.trace, emitted.isClose = false
  spoken : socket.closeEmitted = true → ∃ before code reason,
    socket.trace = before ++ [.close code reason] ∧ ∀ emitted ∈ before, emitted.isClose = false
  terminated : socket.terminated = true → socket.closeEmitted = true
  callsInOrder : socket.called ++ socket.pending.map Send.id = List.range socket.sent
  buffers : socket.bufferedAmount = ((socket.pending.map Send.size).sum : ℕ)

/-- What orderly events keep. -/
structure Kept (socket : WebSocket) : Prop extends Sound socket where
  pumpOver : socket.pump = .stopped → socket.closeEmitted = true ∨ .pumpError ∈ socket.frames
  closeOver : socket.closeSettled = true →
    socket.closeEmitted = true ∨ .closeError ∈ socket.frames

variable {socket : WebSocket}

theorem Sound.emit (sound : Sound socket) (before : socket.closeEmitted = false)
    {emitted : Emitted} (other : emitted.isClose = false) (frame : Frame) :
    Sound (socket.emit emitted frame) :=
  { sound with
    silent := fun _ => forall_mem_concat (sound.silent before) other
    spoken := fun after => by
      have clash : socket.closeEmitted = true := after
      rw [before] at clash
      cases clash }

theorem finishClose_emitted (socket : WebSocket) (code : ℤ) (reason : Text) (inSend : Bool) :
    (socket.finishClose code reason inSend).closeEmitted = true := by
  unfold finishClose
  by_cases emitted : socket.closeEmitted = true
  · rw [if_pos emitted]
    exact emitted
  · rw [if_neg emitted]
    rfl

theorem Sound.finishClose (sound : Sound socket) (code : ℤ) (reason : Text) (inSend : Bool) :
    Sound (socket.finishClose code reason inSend) := by
  unfold WebSocket.finishClose
  by_cases emitted : socket.closeEmitted = true
  · rw [if_pos emitted]
    exact sound
  · rw [if_neg emitted]
    have quiet := sound.silent (Bool.eq_false_iff.mpr emitted)
    exact { sound with
      closedState := ⟨fun _ => rfl, fun _ => rfl⟩
      silent := fun never => by cases never
      spoken := fun _ => ⟨socket.trace, code, reason, rfl, quiet⟩
      terminated := fun _ => rfl }

theorem Sound.keptClosed (sound : Sound socket) (code : ℤ) (reason : Text) (inSend : Bool) :
    Kept (socket.finishClose code reason inSend) :=
  { sound.finishClose code reason inSend with
    pumpOver := fun _ => .inl (finishClose_emitted socket code reason inSend)
    closeOver := fun _ => .inl (finishClose_emitted socket code reason inSend) }

section

variable (kept : Kept socket)

include kept

theorem Kept.pumpFails : Kept socket.pumpFails := by
  have stopped : Sound { socket with pump := .stopped } := { kept.toSound with }
  unfold WebSocket.pumpFails
  by_cases closed : socket.readyState ≠ .closed
  · simp only [if_pos closed]
    have before : socket.closeEmitted = false := by
      apply Bool.eq_false_iff.mpr
      intro emitted
      exact closed (kept.closedState.mpr emitted)
    have emits : Sound (({ socket with pump := .stopped } : WebSocket).emit .error .pumpError) :=
      stopped.emit before rfl .pumpError
    exact { emits with
      pumpOver := fun _ => .inr List.mem_cons_self
      closeOver := fun settled => by
        rcases kept.closeOver settled with emitted | waits
        · exact .inl emitted
        · exact .inr (List.mem_cons_of_mem _ waits) }
  · simp only [if_neg closed]
    exact stopped.keptClosed 1006 [] false

theorem Kept.pop {frame : Frame} {rest : List Frame} (frames : socket.frames = frame :: rest)
    (nothing : frame ≠ .pumpError ∧ frame ≠ .closeError ∨ socket.closeEmitted = true) :
    Kept { socket with frames := rest } := by
  have remains : ∀ {other}, other ∈ socket.frames → frame ≠ other → other ∈ rest := by
    intro other listed different
    rw [frames] at listed
    rcases List.mem_cons.mp listed with same | later
    · exact absurd same.symm different
    · exact later
  exact { kept with
    pumpOver := fun stopped => by
      rcases nothing with ⟨different, _⟩ | emitted
      · rcases kept.pumpOver stopped with emitted | waits
        · exact .inl emitted
        · exact .inr (remains waits different)
      · exact .inl emitted
    closeOver := fun settled => by
      rcases nothing with ⟨_, different⟩ | emitted
      · rcases kept.closeOver settled with emitted | waits
        · exact .inl emitted
        · exact .inr (remains waits different)
      · exact .inl emitted }

theorem Kept.emit (before : socket.closeEmitted = false)
    {emitted : Emitted} (other : emitted.isClose = false) (frame : Frame) :
    Kept (socket.emit emitted frame) :=
  { kept.toSound.emit before other frame with
    pumpOver := fun stopped => by
      rcases kept.pumpOver stopped with after | waits
      · exact .inl after
      · exact .inr (List.mem_cons_of_mem _ waits)
    closeOver := fun settled => by
      rcases kept.closeOver settled with after | waits
      · exact .inl after
      · exact .inr (List.mem_cons_of_mem _ waits) }

/-- A function that goes on keeps what is kept. -/
theorem Kept.goOn {frame : Frame} {rest : List Frame} {throws : Bool}
    (frames : socket.frames = frame :: rest) {limits : WebSocketLimits}
    (orderly : socket.isOrderly limits (.returned throws) = true) :
    Kept ({ socket with frames := rest }.goOn throws frame) := by
  unfold isOrderly at orderly
  rw [frames] at orderly
  cases frame with
  | completion failed =>
    have popped := kept.pop frames (.inl ⟨by simp, by simp⟩)
    cases throws with
    | true => exact { popped with }
    | false =>
      cases failed with
      | true =>
        have before : socket.closeEmitted = false := (Bool.not_eq_true' _).mp orderly
        exact popped.emit before rfl .sendError
      | false => exact { popped with }
  | sendError =>
    have popped := kept.pop frames (.inl ⟨by simp, by simp⟩)
    cases throws with
    | true => exact { popped with }
    | false =>
      have resolved : Sound { socket with frames := rest, tailRejected := false } :=
        { popped.toSound with }
      exact resolved.keptClosed 1006 [] true
  | message =>
    have popped := kept.pop frames (.inl ⟨by simp, by simp⟩)
    cases throws with
    | true => exact popped.pumpFails
    | false => exact popped
  | closed inSend =>
    have popped := kept.pop frames (.inl ⟨by simp, by simp⟩)
    change Kept (if throws && inSend then { socket with frames := rest, tailRejected := true }
      else { socket with frames := rest })
    split
    · exact { popped with }
    · exact popped
  | _ =>
    have rested : Sound { socket with frames := rest } := { kept.toSound with }
    cases throws with
    | true => exact kept.pop frames (.inr orderly)
    | false => exact rested.keptClosed 1006 [] false

theorem Kept.send (limits : WebSocketLimits) (size : ℕ) : Kept (socket.send limits size) := by
  unfold WebSocket.send
  split
  · exact kept
  · split
    · exact kept
    · exact { kept with
        callsInOrder := by
          change socket.called ++ (socket.pending ++ [_]).map Send.id = List.range (socket.sent + 1)
          rw [List.map_append, ← List.append_assoc, kept.callsInOrder, List.range_succ]
          rfl
        buffers := by
          change socket.bufferedAmount + size = (((socket.pending ++ [_]).map Send.size).sum : ℕ)
          rw [List.map_append, List.sum_append, kept.buffers]
          simp }

theorem Kept.settleSend {first : Send} {rest : List Send}
    (pending : socket.pending = first :: rest) (failed : Bool) :
    Kept (socket.settleSend first rest failed) :=
  { kept with
    callsInOrder := by
      have inOrder := kept.callsInOrder
      rw [pending] at inOrder
      change (socket.called ++ [first.id]) ++ rest.map Send.id = _
      rw [List.append_assoc]
      exact inOrder
    buffers := by
      have buffers := kept.buffers
      rw [pending, List.map_cons, List.sum_cons] at buffers
      change socket.bufferedAmount - first.size = ((rest.map Send.size).sum : ℕ)
      omega
    pumpOver := fun stopped => by
      rcases kept.pumpOver stopped with emitted | waits
      · exact .inl emitted
      · exact .inr (List.mem_cons_of_mem _ waits)
    closeOver := fun settled => by
      rcases kept.closeOver settled with emitted | waits
      · exact .inl emitted
      · exact .inr (List.mem_cons_of_mem _ waits) }

theorem Kept.read {outcome : ReadOutcome}
    (orderly : ∀ data isBinary, outcome = .message data isBinary → socket.closeEmitted = false) :
    Kept (socket.read outcome) := by
  have stopped : Sound { socket with pump := .stopped } := { kept.toSound with }
  cases outcome with
  | message data isBinary => exact kept.emit (orderly data isBinary rfl) rfl .message
  | close code reason => exact stopped.keptClosed code reason false
  | ended => exact stopped.keptClosed 1000 [] false
  | invalid => exact kept.pumpFails

theorem Kept.settleClose (code : ℤ) (reason : Text) {failed : Bool}
    (orderly : failed = true → socket.closeEmitted = false) :
    Kept (socket.settleClose code reason failed) := by
  have settled : Sound { socket with closeSettled := true } := { kept.toSound with }
  cases failed with
  | false => exact settled.keptClosed code reason false
  | true =>
    have emits :
      Sound (({ socket with closeSettled := true } : WebSocket).emit .error .closeError) :=
      settled.emit (orderly rfl) rfl .closeError
    exact { emits with
      pumpOver := fun stopped => by
        rcases kept.pumpOver stopped with emitted | waits
        · exact .inl emitted
        · exact .inr (List.mem_cons_of_mem _ waits)
      closeOver := fun _ => .inr List.mem_cons_self }

theorem Kept.close (code : JsonValue) (reason : Text) : Kept (socket.close code reason) := by
  unfold WebSocket.close
  by_cases over_ : socket.readyState = .closed ∨ socket.readyState = .closing
  · rw [if_pos over_]
    exact kept
  rw [if_neg over_]
  split
  · exact kept
  · split
    · exact kept
    · exact { kept with
        closedState := by
          have still : ¬ socket.closeEmitted = true := fun emitted =>
            over_ (.inl (kept.closedState.mpr emitted))
          exact iff_of_false (fun closed => by cases closed) still }

theorem Kept.terminate : Kept socket.terminate := by
  have closes := kept.keptClosed 1006 [] false
  unfold WebSocket.terminate
  unfold WebSocket.finishClose at closes ⊢
  by_cases emitted : socket.closeEmitted = true
  · rw [if_pos emitted]
    exact { kept with terminated := fun _ => emitted }
  · rw [if_neg emitted] at closes ⊢
    exact { closes with terminated := fun _ => rfl }

theorem Kept.step {limits : WebSocketLimits} {event : SocketEvent}
    {next : WebSocket} (orderly : socket.isOrderly limits event = true)
    (stepped : socket.step limits event = some next) : Kept next := by
  unfold WebSocket.step at stepped
  cases event with
  | opened throws =>
    simp only at stepped
    split at stepped
    · rw [← Option.some.inj stepped]
      split
      · exact kept.pumpFails
      · exact { kept with pumpOver := fun reading => by cases reading }
    · cases stepped
  | send size =>
    rw [← Option.some.inj stepped]
    exact kept.send limits size
  | close code reason =>
    rw [← Option.some.inj stepped]
    exact kept.close code reason
  | terminate =>
    rw [← Option.some.inj stepped]
    exact kept.terminate
  | sendSettled failed =>
    simp only at stepped
    split at stepped
    next first rest _ pending =>
      split at stepped
      · cases stepped
      · rw [← Option.some.inj stepped]
        exact kept.settleSend pending failed
    next => cases stepped
  | closeSettled failed =>
    simp only at stepped
    split at stepped
    next code reason _ _ _ =>
      split at stepped
      · cases stepped
      · rw [← Option.some.inj stepped]
        apply kept.settleClose code reason
        intro failing
        change (!failed || !socket.closeEmitted) = true at orderly
        rw [failing] at orderly
        exact (Bool.not_eq_true' _).mp orderly
    next => cases stepped
  | pumped result =>
    simp only at stepped
    split at stepped
    next =>
      split at stepped
      · rw [← Option.some.inj stepped]
        apply kept.read
        intro data isBinary same
        unfold isOrderly at orderly
        simp only [same] at orderly
        exact (Bool.not_eq_true' _).mp orderly
      · cases stepped
    next => cases stepped
  | returned throws =>
    simp only at stepped
    split at stepped
    next => cases stepped
    next frame rest frames =>
      rw [← Option.some.inj stepped]
      exact kept.goOn frames orderly

end

theorem Kept.begins : Kept start where
  closedState := by decide
  silent _ emitted listed := by cases listed
  spoken emitted := by cases emitted
  terminated gone := by cases gone
  callsInOrder := rfl
  buffers := rfl
  pumpOver stopped := by cases stopped
  closeOver settled := by cases settled

theorem Sound.closes (sound : Sound socket) (emitted : socket.closeEmitted = true) :
    socket.trace.countP Emitted.isClose = 1 := by
  obtain ⟨before, code, reason, same, others⟩ := sound.spoken emitted
  have none : before.countP Emitted.isClose = 0 := by
    rw [List.countP_eq_zero]
    intro other listed close
    rw [others other listed] at close
    cases close
  rw [same, List.countP_append, none]
  rfl

theorem Kept.wellFormedTrace (kept : Kept socket) : WellFormedTrace socket where
  closesOnce := by
    by_cases emitted : socket.closeEmitted = true
    · rw [kept.closes emitted]
    · have none : socket.trace.countP Emitted.isClose = 0 := by
        rw [List.countP_eq_zero]
        intro other listed close
        rw [kept.silent (Bool.eq_false_iff.mpr emitted) other listed] at close
        cases close
      omega
  closesTerminated gone := kept.closes (kept.terminated gone)
  closesOver idle over_ := by
    apply kept.closes
    rcases over_ with stopped | settled
    · rcases kept.pumpOver stopped with emitted | waits
      · exact emitted
      · rw [idle] at waits
        cases waits
    · rcases kept.closeOver settled with emitted | waits
      · exact emitted
      · rw [idle] at waits
        cases waits
  closesLast before code reason after same := by
    by_cases emitted : socket.closeEmitted = true
    · obtain ⟨first, lastCode, lastReason, trace, others⟩ := kept.spoken emitted
      rcases List.eq_nil_or_concat after with none | ⟨between, last, behind⟩
      · exact none
      · rw [trace, behind, List.concat_eq_append, ← List.cons_append, ← List.append_assoc] at same
        have early : first = before ++ .close code reason :: between :=
          (List.append_inj' same rfl).1
        have listed : Emitted.close code reason ∈ first := by
          rw [early]
          exact List.mem_append_right _ List.mem_cons_self
        have silent := others _ listed
        cases silent
    · have listed : Emitted.close code reason ∈ socket.trace := by
        rw [same]
        exact List.mem_append_right _ List.mem_cons_self
      have silent := kept.silent (Bool.eq_false_iff.mpr emitted) _ listed
      cases silent
  callsInOrder := kept.callsInOrder
  buffers := kept.buffers

/-- In runs of orderly events, a socket emits a well formed trace. -/
theorem orderly_wellFormedTrace {limits : WebSocketLimits} {events : List SocketEvent}
    {socket : WebSocket} (reached : (webSocket limits).ReachesWhen
      (fun state event => state.isOrderly limits event = true) events socket) :
    WellFormedTrace socket := by
  have kept : Kept socket := by
    apply reached.invariant
    · exact Kept.begins
    · intro state event next kept orderly stepped
      exact Kept.step kept orderly stepped
  exact kept.wellFormedTrace

/-- A message is sent, and the socket is closed behind it. -/
theorem orderly_wellFormedTrace_closes : ∃ socket, WellFormedTrace socket ∧
    socket.trace = [.close 1000 []] ∧ socket.called = [0] := by
  have computed : (((webSocket ⟨100, 100⟩).guarded fun state event =>
      state.isOrderly ⟨100, 100⟩ event = true).run
      [.opened false, .send 3, .close (.number 1000) [], .sendSettled false, .returned false,
        .closeSettled false, .returned false, .pumped (.done none)]).map (fun socket =>
          (socket.trace, socket.called)) = some ([.close 1000 []], [0]) := by
    decide +kernel
  obtain ⟨socket, reached, same⟩ := Machine.exists_of_guarded_run computed
  simp only [Prod.mk.injEq] at same
  exact ⟨socket, orderly_wellFormedTrace reached, same⟩

/-- A send that fails after the socket was terminated emits an error after the close. -/
theorem not_wellFormedTrace : ¬ ∀ (limits : WebSocketLimits) (events : List SocketEvent)
    (socket : WebSocket), (webSocket limits).Reaches events socket →
      WellFormedTrace socket := by
  intro all
  have computed : ((webSocket ⟨100, 100⟩).run
      [.opened false, .send 3, .terminate, .returned false, .sendSettled true,
        .returned false]).map (fun socket => socket.trace) =
      some [.close 1006 [], .error] := by
    decide +kernel
  obtain ⟨socket, reached, same⟩ := Machine.exists_of_run computed
  have formed := all ⟨100, 100⟩ _ socket reached
  have last := formed.closesLast [] 1006 [] [.error] same
  cases last

end WebSocket

end Holonomy.HttpServer
