import Mathlib

/-!
# The gate of a guest process

System calls that start programs or connect are stopped, and the gate is notified of each. It lets
the root process execute its program once and denies what would start another process or program;
what connects waits for a decision of the host. What the kernel, the guest's memory, the clock and
the connection to the host do is told by the calls; what these return to their caller is left out.
-/

namespace Holonomy.Supervisor

inductive Syscall
  | execve
  | execveat
  | fork
  | vfork
  | clone
  | clone3
  | socketcall
  | connect
  | sendto
  | other (number : ℕ)
deriving DecidableEq

/-- A system call that starts a process or a program. -/
def Syscall.starts : Syscall → Bool
  | execve | execveat | fork | vfork | clone | clone3 => true
  | _ => false

structure SeccompNotif where
  id : ℕ
  pid : ℕ
  isI386 : Bool
  nr : Syscall
  args : Fin 6 → ℕ

inductive GateKind
  | exec
  | network
deriving DecidableEq

/-- The decision that is waited for. Of the notification, the gate keeps its id and its process. -/
structure Decision where
  kind : GateKind
  notification : SeccompNotif
  requestId : ℕ
  deadline : ℤ
  pathAddress : ℕ
  argvAddress : ℕ
  snapshot : List UInt8

/-- The program of a process, as it is found before the process executes it. -/
structure CommitTarget where
  path : List UInt8
  device : ℕ
  inode : ℕ
  startTimeTicks : ℕ

/-- A program whose execution is to be told to the host when it has begun. -/
structure Commit where
  requestId : ℕ
  pid : ℕ
  target : CommitTarget
  deadline : ℤ

structure HoloExecGate where
  listening : Bool
  /-- The root process, until it executes its program; no positive number afterwards. -/
  initialPid : ℤ
  pending : Option Decision
  commit : Option Commit
  /-- All notifications that were received. -/
  received : List SeccompNotif
  /-- All answers that were sent, with the notifications they answer. -/
  answers : List (SeccompNotif × Bool)

structure HoloFrame where
  requestId : ℕ
  processId : ℕ
  payload : List UInt8

/-- What sending an answer comes to. -/
inductive ExecResponseResult
  | error
  | stale
  | sent
deriving DecidableEq

/-- What is found in the memory of a process that connects. -/
inductive NetworkCapture
  | unrelated
  | captured (payload : List UInt8)
  | unsupported

/-- What is found when a program that was decided on is looked at again. -/
structure Recheck where
  valid : Bool
  current : Option (List UInt8)
  target : Option CommitTarget

namespace HoloExecGate

variable (gate : HoloExecGate)

/-- A gate that has its listener. -/
def prepareParent (rootPid : ℤ) : HoloExecGate where
  listening := true
  initialPid := rootPid
  pending := none
  commit := none
  received := []
  answers := []

/-- Send an answer. -/
def respond (notification : SeccompNotif) (allowed : Bool) : HoloExecGate :=
  { gate with answers := gate.answers ++ [(notification, allowed)] }

/-- The addresses of the path and the arguments. -/
def execAddresses (notification : SeccompNotif) : Option (ℕ × ℕ) :=
  let addresses (path argv : ℕ) : Option (ℕ × ℕ) :=
    if path = 0 ∨ argv = 0 ∨ 2 ^ 32 ≤ path ∨ 2 ^ 32 ≤ argv then none else some (path, argv)
  match notification.nr with
  | .execve => addresses (notification.args 0) (notification.args 1)
  | .execveat =>
    -- `AT_FDCWD` is -100
    if notification.args 0 % 2 ^ 32 ≠ 2 ^ 32 - 100 ∨ notification.args 4 ≠ 0 then none
    else addresses (notification.args 1) (notification.args 2)
  | _ => none

/-- Ask the host for a decision, or deny when the host cannot be asked. -/
def ask (decision : Decision) (now : ℤ) (written : Bool) : HoloExecGate :=
  if now < 0 ∨ written = false then gate.respond decision.notification false
  else { gate with pending := some decision }

/-- The gate behind a notification. -/
def judge (notification : SeccompNotif) (requestId timeout : ℕ) (network : NetworkCapture)
    (payload : Option (List UInt8)) (now : ℤ) (written : Bool) : HoloExecGate :=
  if notification.isI386 = false then gate.respond notification false
  else if notification.nr ∈ [.fork, .vfork, .clone, .clone3] then gate.respond notification false
  else if 0 < gate.initialPid then
    if notification.pid = gate.initialPid ∧ notification.nr = .execve then
      { gate with initialPid := 0 }.respond notification true
    else gate.respond notification false
  else if notification.nr ∈ [.execve, .execveat] then gate.respond notification false
  else if notification.nr ∈ [.socketcall, .connect, .sendto] then
    match network with
    | .unrelated => gate.respond notification true
    | .unsupported => gate.respond notification false
    | .captured _ => gate.ask ⟨.network, notification, requestId, now + timeout, 0, 0, []⟩
        now written
  else match execAddresses notification, payload with
    | some (path, argv), some snapshot =>
      gate.ask ⟨.exec, notification, requestId, now + timeout, path, argv, snapshot⟩ now written
    | _, _ => gate.respond notification false

/-- Nothing is received while something is waited for. -/
def pollEvent (received : Option SeccompNotif) (requestId timeout : ℕ) (network : NetworkCapture)
    (payload : Option (List UInt8)) (now : ℤ) (written : Bool) : HoloExecGate :=
  if gate.listening = false ∨ gate.pending.isSome ∨ gate.commit.isSome then gate
  else match received with
    | none => gate
    | some notification =>
      { gate with received := gate.received ++ [notification] }.judge notification requestId timeout
        network payload now written

/-- The decision that a frame is about. -/
def decisionOf (kind : GateKind) (frame : HoloFrame) : Option Decision :=
  gate.pending.filter fun decision => decision.kind = kind ∧ decision.requestId = frame.requestId

def execResponse (frame : HoloFrame) (recheck : Recheck) (now : ℤ) (result : ExecResponseResult) :
    HoloExecGate :=
  match gate.decisionOf .exec frame, frame.payload with
  | some decision, [value] =>
    if 1 < value then gate
    else
      let target := if value = 1 ∧ recheck.valid ∧ recheck.current = some decision.snapshot then
        recheck.target else none
      { gate.respond decision.notification target.isSome with
        pending := none
        commit := if result = .sent then target.elim gate.commit fun target =>
            some ⟨decision.requestId, decision.notification.pid, target, now + 1000⟩
          else gate.commit }
  | _, _ => gate

def networkResponse (frame : HoloFrame) (valid : Bool) : HoloExecGate :=
  match gate.decisionOf .network frame, frame.payload with
  | some decision, [value] =>
    if 1 < value then gate
    else { gate.respond decision.notification (value = 1 && valid) with pending := none }
  | _, _ => gate

/-- Deny what was waited for too long. -/
def expire (now : ℤ) : HoloExecGate :=
  match gate.pending with
  | some decision =>
    if now < 0 ∨ decision.deadline ≤ now then
      { gate.respond decision.notification false with pending := none }
    else gate
  | none => gate

/-- Tell the host of a program that has begun, or that it did not; `none` where the process is
another one by now. -/
def progress (now : ℤ) (result : ExecResponseResult) (matched : Option Bool) : HoloExecGate :=
  let next := gate.expire now
  if gate.pending.isSome ∧ next.pending = none ∧ result = .error then next
  else match next.commit with
    | some commit =>
      if matched = some false ∧ 0 ≤ now ∧ now < commit.deadline then next
      else { next with commit := none }
    | none => next

def close : HoloExecGate :=
  { (gate.pending.elim gate fun decision => gate.respond decision.notification false) with
    listening := false
    initialPid := 0
    pending := none
    commit := none }

end HoloExecGate

inductive GateCall
  | pollEvent (received : Option SeccompNotif) (requestId timeout : ℕ) (network : NetworkCapture)
    (payload : Option (List UInt8)) (now : ℤ) (written : Bool)
  | execResponse (frame : HoloFrame) (recheck : Recheck) (now : ℤ) (result : ExecResponseResult)
  | networkResponse (frame : HoloFrame) (valid : Bool)
  | progress (now : ℤ) (result : ExecResponseResult) (matched : Option Bool)
  | close

/-- A call brings the host's decision. -/
def GateCall.decides (call : GateCall) (decision : Decision) : Prop :=
  match call with
  | .execResponse frame .. =>
    decision.kind = .exec ∧ decision.requestId = frame.requestId ∧ frame.payload = [1]
  | .networkResponse frame _ =>
    decision.kind = .network ∧ decision.requestId = frame.requestId ∧ frame.payload = [1]
  | _ => False

namespace HoloExecGate

variable (gate : HoloExecGate)

def step : GateCall → HoloExecGate
  | .pollEvent received requestId timeout network payload now written =>
    gate.pollEvent received requestId timeout network payload now written
  | .execResponse frame recheck now result => gate.execResponse frame recheck now result
  | .networkResponse frame valid => gate.networkResponse frame valid
  | .progress now result matched => gate.progress now result matched
  | .close => gate.close

/-- The gate after some calls. -/
def run (rootPid : ℤ) (calls : List GateCall) : HoloExecGate :=
  calls.foldl step (prepareParent rootPid)

/-- The notifications of programs and processes whose start was allowed. -/
def started : List SeccompNotif :=
  (gate.answers.filter fun answer => answer.2 && answer.1.nr.starts).map Prod.fst

/-- Each notification is answered once, in turn, but for one that a decision is waited for; a
decision that is waited for is allowed by the host alone; and nothing is started but once the root
process's program. -/
structure AnswersOnce (rootPid : ℤ) : Prop where
  once : gate.answers.map Prod.fst ++ gate.pending.toList.map Decision.notification = gate.received
  closed : gate.listening = false → gate.answers.map Prod.fst = gate.received
  allowed : ∀ call answer decision, gate.pending = some decision →
    (gate.step call).answers = gate.answers ++ [answer] → answer.2 = true → call.decides decision
  starts : gate.started.length ≤ 1 ∧
    ∀ notification ∈ gate.started, notification.pid = rootPid ∧ notification.nr = .execve

/-- What a call does: nothing, or it answers what it received, or waits with it for a decision, or
answers what waited. -/
inductive Moves (call : GateCall) (next : HoloExecGate) : Prop
  | stays (answers : next.answers = gate.answers) (received : next.received = gate.received)
    (pending : next.pending = gate.pending)
    (pid : next.initialPid = gate.initialPid ∨ next.initialPid = 0)
    (listens : next.listening = gate.listening ∨ gate.pending = none)
  | answers {notification : SeccompNotif} {allowed : Bool} (free : gate.pending = none)
    (received : next.received = gate.received ++ [notification])
    (answers : next.answers = gate.answers ++ [(notification, allowed)])
    (pending : next.pending = none)
    (starts : allowed = true → notification.nr.starts = true → 0 < gate.initialPid ∧
      notification.pid = gate.initialPid ∧ notification.nr = .execve ∧ next.initialPid = 0)
    (pid : next.initialPid = gate.initialPid ∨ next.initialPid = 0)
  | asks {decision : Decision} (free : gate.pending = none)
    (received : next.received = gate.received ++ [decision.notification])
    (answers : next.answers = gate.answers) (pending : next.pending = some decision)
    (harmless : decision.notification.nr.starts = false)
    (pid : next.initialPid = gate.initialPid) (listens : next.listening = true)
  | decides {decision : Decision} {allowed : Bool} (waits : gate.pending = some decision)
    (received : next.received = gate.received)
    (answers : next.answers = gate.answers ++ [(decision.notification, allowed)])
    (pending : next.pending = none) (host : allowed = true → call.decides decision)
    (pid : next.initialPid = gate.initialPid ∨ next.initialPid = 0)

variable {gate} {notification : SeccompNotif}

theorem moves_ask {call : GateCall} {decision : Decision} {now : ℤ}
    {written : Bool} (free : gate.pending = none) (listens : gate.listening = true)
    (same : decision.notification = notification) (harmless : notification.nr.starts = false) :
    gate.Moves call ({ gate with received := gate.received ++ [notification] }.ask decision now
      written) := by
  subst same
  unfold ask
  split
  · exact .answers free rfl rfl free (fun allowed => absurd allowed Bool.false_ne_true) (.inl rfl)
  · exact .asks free rfl rfl rfl harmless rfl listens

theorem moves_judge {call : GateCall} {requestId timeout : ℕ}
    {network : NetworkCapture} {payload : Option (List UInt8)} {now : ℤ} {written : Bool}
    (free : gate.pending = none) (listens : gate.listening = true) :
    gate.Moves call ({ gate with received := gate.received ++ [notification] }.judge notification
      requestId timeout network payload now written) := by
  have denied : gate.Moves call
      ({ gate with received := gate.received ++ [notification] }.respond notification false) :=
    .answers free rfl rfl free (fun allowed => absurd allowed Bool.false_ne_true) (.inl rfl)
  unfold judge
  split
  · exact denied
  split
  · exact denied
  rename_i noProcess
  split
  · rename_i initial
    split
    · rename_i root
      exact .answers free rfl rfl free (fun _ _ => ⟨initial, root.1, root.2, rfl⟩) (.inr rfl)
    · exact denied
  split
  · exact denied
  rename_i noProgram
  have harmless : notification.nr.starts = false := by
    cases nr : notification.nr <;> simp_all [Syscall.starts]
  split
  · split
    · exact .answers free rfl rfl free
        (fun _ starts => absurd (harmless.symm.trans starts) Bool.false_ne_true) (.inl rfl)
    · exact denied
    · exact moves_ask free listens rfl harmless
  · split
    · exact moves_ask free listens rfl harmless
    · exact denied

theorem moves_step (gate : HoloExecGate) (call : GateCall) : gate.Moves call (gate.step call) := by
  have idle : gate.Moves call gate := .stays rfl rfl rfl (.inl rfl) (.inl rfl)
  cases call with
  | pollEvent received requestId timeout network payload now written =>
    simp only [step, pollEvent]
    split
    · exact idle
    rename_i ready
    simp only [not_or, Bool.not_eq_false, Bool.not_eq_true, Option.isSome_eq_false_iff,
      Option.isNone_iff_eq_none] at ready
    split
    · exact idle
    · exact moves_judge ready.2.1 ready.1
  | execResponse frame recheck now result =>
    simp only [step, execResponse]
    split
    · rename_i decision value found payload
      obtain ⟨waits, matching⟩ := Option.filter_eq_some_iff.mp found
      simp only [decide_eq_true_eq] at matching
      split
      · exact idle
      · refine .decides waits rfl rfl rfl (fun allowed => ?_) (.inl rfl)
        refine ⟨matching.1, matching.2, payload.trans ?_⟩
        by_contra other
        rw [if_neg fun checked => other (by rw [checked.1])] at allowed
        cases allowed
    · exact idle
  | networkResponse frame valid =>
    simp only [step, networkResponse]
    split
    · rename_i decision value found payload
      obtain ⟨waits, matching⟩ := Option.filter_eq_some_iff.mp found
      simp only [decide_eq_true_eq] at matching
      split
      · exact idle
      · refine .decides waits rfl rfl rfl (fun allowed => ?_) (.inl rfl)
        have one := of_decide_eq_true (Bool.and_eq_true_iff.mp allowed).1
        exact ⟨matching.1, matching.2, by rw [payload, one]⟩
    · exact idle
  | progress now result matched =>
    have kept : ∃ commit, gate.progress now result matched = { gate.expire now with commit } := by
      unfold progress
      dsimp only
      split
      · exact ⟨_, rfl⟩
      · split
        · split
          · exact ⟨_, rfl⟩
          · exact ⟨_, rfl⟩
        · exact ⟨_, rfl⟩
    obtain ⟨commit, same⟩ := kept
    rw [step, same]
    unfold expire
    split
    · rename_i decision waits
      split
      · exact .decides waits rfl rfl rfl (fun allowed => absurd allowed Bool.false_ne_true)
          (.inl rfl)
      · exact .stays rfl rfl rfl (.inl rfl) (.inl rfl)
    · exact .stays rfl rfl rfl (.inl rfl) (.inl rfl)
  | close =>
    rw [step, close]
    cases waits : gate.pending with
    | none => exact .stays rfl rfl waits.symm (.inr rfl) (.inr waits)
    | some decision =>
      exact .decides waits rfl rfl rfl (fun allowed => absurd allowed Bool.false_ne_true) (.inr rfl)

/-- What was started, and what may be. -/
structure StartsRoot (rootPid : ℤ) (gate : HoloExecGate) : Prop where
  initial : 0 < gate.initialPid → gate.initialPid = rootPid ∧ gate.started = []
  starts : gate.started.length ≤ 1 ∧
    ∀ notification ∈ gate.started, notification.pid = rootPid ∧ notification.nr = .execve

theorem StartsRoot.keeps {rootPid : ℤ} {next : HoloExecGate} (root : StartsRoot rootPid gate)
    (started : next.started = gate.started)
    (pid : next.initialPid = gate.initialPid ∨ next.initialPid = 0) : StartsRoot rootPid next := by
  refine ⟨fun positive => ?_, started ▸ root.starts⟩
  rcases pid with same | zero
  · rw [same] at positive ⊢
    rw [started]
    exact root.initial positive
  · exact absurd zero positive.ne'

/-- What holds between the calls. -/
structure Sound (rootPid : ℤ) (gate : HoloExecGate) : Prop where
  once : gate.answers.map Prod.fst ++ gate.pending.toList.map Decision.notification = gate.received
  deaf : gate.listening = false → gate.pending = none
  harmless : ∀ decision, gate.pending = some decision → decision.notification.nr.starts = false
  root : StartsRoot rootPid gate

theorem started_append {next : HoloExecGate} {allowed : Bool}
    (answers : next.answers = gate.answers ++ [(notification, allowed)]) :
    next.started = gate.started ++
      if allowed && notification.nr.starts then [notification] else [] := by
  rw [started, answers, List.filter_append, List.map_append, started]
  congr 1
  cases starts : allowed && notification.nr.starts with
  | true => simp [starts]
  | false => simp [starts]

theorem Sound.step {rootPid : ℤ} (sound : Sound rootPid gate) (call : GateCall) :
    Sound rootPid (gate.step call) := by
  have once := sound.once
  have unchanged : (gate.step call).answers = gate.answers →
      (gate.step call).started = gate.started := by
    intro answers
    rw [HoloExecGate.started, answers]
    rfl
  cases gate.moves_step call with
  | stays answers received pending pid listens =>
    refine ⟨?_, fun deaf => ?_, ?_, sound.root.keeps (unchanged answers) pid⟩
    · rw [answers, received, pending, once]
    · rw [pending]
      exact listens.elim (fun same => sound.deaf (same ▸ deaf)) id
    · rw [pending]
      exact sound.harmless
  | @answers notification allowed free received answers pending starts pid =>
    have started := started_append answers
    rw [free, Option.toList_none, List.map_nil, List.append_nil] at once
    refine ⟨?_, fun _ => pending, fun _ waits => ?_, ?_⟩
    · rw [answers, pending, received, List.map_append, once]
      exact List.append_nil _
    · cases pending.symm.trans waits
    by_cases begins : (allowed && notification.nr.starts) = true
    · obtain ⟨isAllowed, isStart⟩ := Bool.and_eq_true_iff.mp begins
      obtain ⟨positive, isRoot, isExecve, spent⟩ := starts isAllowed isStart
      obtain ⟨root, none⟩ := sound.root.initial positive
      rw [if_pos begins, none, List.nil_append] at started
      refine ⟨fun still => absurd spent still.ne', ?_, ?_⟩
      · rw [started]
        exact le_refl 1
      · rw [started, List.forall_mem_singleton]
        exact ⟨isRoot.trans root, isExecve⟩
    · rw [if_neg begins, List.append_nil] at started
      exact sound.root.keeps started pid
  | @asks decision free received answers pending harmless pid listens =>
    rw [free, Option.toList_none, List.map_nil, List.append_nil] at once
    refine ⟨?_, fun deaf => ?_, fun other waits => ?_,
      sound.root.keeps (unchanged answers) (.inl pid)⟩
    · rw [answers, pending, received, once]
      rfl
    · cases listens.symm.trans deaf
    · cases pending.symm.trans waits
      exact harmless
  | @decides decision allowed waits received answers pending host pid =>
    have started := started_append answers
    rw [sound.harmless decision waits, Bool.and_false, if_neg Bool.false_ne_true, List.append_nil]
      at started
    refine ⟨?_, fun _ => pending, fun _ waits => ?_, sound.root.keeps started pid⟩
    · rw [answers, pending, received, ← once, waits, List.map_append]
      exact List.append_nil _
    · cases pending.symm.trans waits

theorem sound_run (rootPid : ℤ) (calls : List GateCall) : Sound rootPid (run rootPid calls) := by
  have goesOn : ∀ (calls : List GateCall) (gate : HoloExecGate), Sound rootPid gate →
      Sound rootPid (calls.foldl HoloExecGate.step gate) := by
    intro calls
    induction calls with
    | nil => exact fun _ sound => sound
    | cons call calls ih => exact fun gate sound => ih _ (sound.step call)
  refine goesOn calls _ ⟨rfl, fun deaf => ?_, fun _ waits => ?_, fun _ => ⟨rfl, rfl⟩, ?_⟩
  · cases deaf
  · cases waits
  · exact ⟨Nat.zero_le 1, fun _ listed => absurd listed List.not_mem_nil⟩

end HoloExecGate

end Holonomy.Supervisor
