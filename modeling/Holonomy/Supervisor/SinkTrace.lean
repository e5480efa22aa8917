import Holonomy.Supervisor.Environment

/-!
# What the sink of a process hears

A process calls its sink in the middle of its methods, and the sink may call anything back: the
connection may fail or more frames may arrive before the sink returns. So a call of the sink is a
point where the process waits, and the calls that wait stand in a stack.
-/

namespace Holonomy.Supervisor

open Foundation

inductive SinkCallV1 where
  | stdout (sequence : ℕ) (chunk : List UInt8)
  | stderr (sequence : ℕ) (chunk : List UInt8)
  | exit (code : Option ℤ) (signal : Option Text)
  | close (code : Option ℤ) (signal : Option Text)
  | error (error : ErrorV1)
  deriving DecidableEq

namespace SinkCallV1

/-- The sequence number of standard output. -/
def stdoutSequence : SinkCallV1 → Option ℕ
  | .stdout sequence _ => some sequence
  | _ => none

/-- The sequence number of standard error. -/
def stderrSequence : SinkCallV1 → Option ℕ
  | .stderr sequence _ => some sequence
  | _ => none

def isExit : SinkCallV1 → Bool
  | .exit _ _ => true
  | _ => false

/-- The sink hears of the end. -/
def isClose : SinkCallV1 → Bool
  | .close _ _ => true
  | _ => false

end SinkCallV1

/-- How a method goes on when the sink it called returns. -/
inductive ResumeV1 where
  | done
  | closes (code : Option ℤ) (signal : Option Text)
  | fails
  deriving DecidableEq

structure SinkProcessV1 where
  process : HoloUvSupervisorProcessV1
  waiting : List ResumeV1
  trace : List SinkCallV1
  deriving DecidableEq

namespace SinkProcessV1

def spawned (serial : ℕ) : SinkProcessV1 := ⟨⟨serial, false, false, 0, 0⟩, [], []⟩

variable (state : SinkProcessV1)

def call (process : HoloUvSupervisorProcessV1) (call : SinkCallV1) (resume : ResumeV1) :
    SinkProcessV1 := ⟨process, resume :: state.waiting, state.trace ++ [call]⟩

/-- The end of `close`. The flag is not looked at again. -/
def finishClose (code : Option ℤ) (signal : Option Text) : SinkProcessV1 :=
  state.call { state.process with closed := true } (.close code signal) .done

def close (code : Option ℤ) (signal : Option Text) : SinkProcessV1 :=
  if state.process.closed then state
  else if state.process.exited then state.finishClose code signal
  else state.call { state.process with exited := true } (.exit code signal) (.closes code signal)

def error (value : ErrorV1) : SinkProcessV1 :=
  if state.process.closed then state else state.call state.process (.error value) .done

/-- The program has ended. -/
def exit (code : Option ℤ) (signal : Option Text) : SinkProcessV1 :=
  if state.process.exited then state
  else state.call { state.process with exited := true } (.exit code signal) .done

def fail (value : ErrorV1) : SinkProcessV1 :=
  if state.process.closed then state else state.call state.process (.error value) .fails

def stream (stdout : Bool) (sequence : ℕ) (chunk : List UInt8) : Except ErrorV1 SinkProcessV1 :=
  if state.process.closed ∨
      sequence ≠ (if stdout then state.process.stdout else state.process.stderr) then
    .error (.typeError (js "Invalid HoloUV supervisor stream sequence"))
  else if stdout then
    .ok (state.call { state.process with stdout := state.process.stdout + 1 }
      (.stdout sequence chunk) .done)
  else
    .ok (state.call { state.process with stderr := state.process.stderr + 1 }
      (.stderr sequence chunk) .done)

/-- A method goes on. -/
def resume : ResumeV1 → SinkProcessV1
  | .done => state
  | .closes code signal => state.finishClose code signal
  | .fails => state.close none none

end SinkProcessV1

inductive ProcessEventV1 where
  | close (code : Option ℤ) (signal : Option Text)
  | error (value : ErrorV1)
  | exit (code : Option ℤ) (signal : Option Text)
  | fail (value : ErrorV1)
  | stream (stdout : Bool) (sequence : ℕ) (chunk : List UInt8)
  | returns
  | throws
  deriving DecidableEq

namespace SinkProcessV1

variable (state : SinkProcessV1)

def step : ProcessEventV1 → Option SinkProcessV1
  | .close code signal => some (state.close code signal)
  | .error value => some (state.error value)
  | .exit code signal => some (state.exit code signal)
  | .fail value => some (state.fail value)
  | .stream stdout sequence chunk =>
    match state.stream stdout sequence chunk with
    | .ok next => some next
    | .error _ => some state
  | .returns =>
    match state.waiting with
    | [] => none
    | resume :: rest => some ({ state with waiting := rest }.resume resume)
  | .throws =>
    match state.waiting with
    | [] => none
    | _ :: rest => some { state with waiting := rest }

end SinkProcessV1

def processMachine (serial : ℕ) : Machine SinkProcessV1 ProcessEventV1 where
  start := .spawned serial
  step state event := state.step event

structure WellFormed (trace : List SinkCallV1) : Prop where
  stdout : ∃ count, trace.filterMap SinkCallV1.stdoutSequence = List.range count
  stderr : ∃ count, trace.filterMap SinkCallV1.stderrSequence = List.range count
  exit : trace.countP SinkCallV1.isExit ≤ 1
  close : ∀ before after code signal, trace = before ++ .close code signal :: after →
    after = [] ∧ ∃ call ∈ before, call.isExit = true

def Orderly (state : SinkProcessV1) (event : ProcessEventV1) : Prop :=
  event = .returns → ∀ resume ∈ state.waiting.head?, resume ≠ .done → resume ≠ .fails →
    state.process.closed = false

instance orderlyDecidable (state : SinkProcessV1) : DecidablePred (Orderly state) :=
  fun _ => inferInstanceAs (Decidable (_ → _))

namespace SinkProcessV1

/-- What holds of a process in orderly runs. -/
structure Tidy (state : SinkProcessV1) : Prop where
  stdout : state.trace.filterMap SinkCallV1.stdoutSequence = List.range state.process.stdout
  stderr : state.trace.filterMap SinkCallV1.stderrSequence = List.range state.process.stderr
  exit : state.trace.countP SinkCallV1.isExit = if state.process.exited then 1 else 0
  live : state.process.closed = false → ∀ call ∈ state.trace, call.isClose = false
  ended : state.process.closed = true → ∃ before code signal,
    state.trace = before ++ [.close code signal] ∧ ∀ call ∈ before, call.isClose = false
  exited : state.process.closed = true → state.process.exited = true
  closes : ∀ code signal, .closes code signal ∈ state.waiting → state.process.exited = true

variable {state next : SinkProcessV1}

section Tidy

theorem wellFormed_of_append {before after : List SinkCallV1}
    (formed : WellFormed (before ++ after)) : WellFormed before := by
  have range : ∀ (values rest : List ℕ) (count : ℕ), values ++ rest = List.range count →
      values = List.range values.length := by
    intro values rest count whole
    have shorter : values.length ≤ count := by
      have lengths := congrArg List.length whole
      rw [List.length_append, List.length_range] at lengths
      omega
    have taken := congrArg (List.take values.length) whole
    rw [List.take_left, List.take_range, Nat.min_eq_left shorter] at taken
    exact taken
  obtain ⟨⟨outs, stdout⟩, ⟨errs, stderr⟩, exit, close⟩ := formed
  rw [List.filterMap_append] at stdout stderr
  rw [List.countP_append] at exit
  refine ⟨⟨_, range _ _ _ stdout⟩, ⟨_, range _ _ _ stderr⟩, by omega, ?_⟩
  intro left right code signal same
  have whole : before ++ after = left ++ .close code signal :: (right ++ after) := by
    rw [same, List.append_assoc, List.cons_append]
  have last := close left (right ++ after) code signal whole
  exact ⟨(List.append_eq_nil_iff.mp last.1).1, last.2⟩

theorem Tidy.wellFormed (tidy : state.Tidy) : WellFormed state.trace := by
  have exit := tidy.exit
  refine ⟨⟨_, tidy.stdout⟩, ⟨_, tidy.stderr⟩, ?_, ?_⟩
  · split at exit
    · omega
    · omega
  · intro before after code signal same
    have listed : SinkCallV1.close code signal ∈ state.trace := by rw [same]; simp
    cases closed : state.process.closed with
    | false =>
      have unclosed := tidy.live closed _ listed
      cases unclosed
    | true =>
      obtain ⟨earlier, lastCode, lastSignal, whole, none⟩ := tidy.ended closed
      rw [same] at whole
      have last : after = [] := by
        by_contra some
        rw [← List.dropLast_append_getLast some, ← List.cons_append, ← List.append_assoc] at whole
        have front := (List.append_inj' whole rfl).1
        have inside : SinkCallV1.close code signal ∈ earlier := by rw [← front]; simp
        have absent := none _ inside
        cases absent
      refine ⟨last, ?_⟩
      rw [last] at whole same
      rw [tidy.exited closed, if_pos rfl, same, List.countP_append] at exit
      have counted : before.countP SinkCallV1.isExit = 1 := exit
      exact List.countP_pos_iff.mp (by omega)

theorem tidy_spawned (serial : ℕ) : (spawned serial).Tidy where
  stdout := rfl
  stderr := rfl
  exit := rfl
  live _ _ listed := absurd listed List.not_mem_nil
  ended closed := absurd closed Bool.false_ne_true
  exited closed := absurd closed Bool.false_ne_true
  closes _ _ listed := absurd listed List.not_mem_nil

section

variable (tidy : state.Tidy)

include tidy

theorem Tidy.call (live : state.process.closed = false)
    {process : HoloUvSupervisorProcessV1} {call : SinkCallV1} {resume : ResumeV1}
    (closed : process.closed = false) (plain : call.isClose = false)
    (stdout : call.stdoutSequence.toList = [state.process.stdout] ∧
        process.stdout = state.process.stdout + 1 ∨
      call.stdoutSequence.toList = [] ∧ process.stdout = state.process.stdout)
    (stderr : call.stderrSequence.toList = [state.process.stderr] ∧
        process.stderr = state.process.stderr + 1 ∨
      call.stderrSequence.toList = [] ∧ process.stderr = state.process.stderr)
    (exit : call.isExit = true ∧ state.process.exited = false ∧ process.exited = true ∨
      call.isExit = false ∧ process.exited = state.process.exited)
    (waits : ∀ code signal, resume = .closes code signal → process.exited = true) :
    (state.call process call resume).Tidy := by
  have kept : state.process.exited = true → process.exited = true := by
    intro already
    rcases exit with ⟨_, not, _⟩ | ⟨_, same⟩
    · exact absurd already (by rw [not]; exact Bool.false_ne_true)
    · rw [same, already]
  have singleton : ∀ f : SinkCallV1 → Option ℕ, [call].filterMap f = (f call).toList := by
    intro f
    cases found : f call with
    | none => rw [List.filterMap_cons_none found]; rfl
    | some value => rw [List.filterMap_cons_some found]; rfl
  refine ⟨?_, ?_, ?_, ?_, ?_, ?_, ?_⟩
  · show (state.trace ++ [call]).filterMap _ = _
    rw [List.filterMap_append, tidy.stdout, singleton]
    rcases stdout with ⟨some, more⟩ | ⟨none, same⟩
    · rw [some, SinkProcessV1.call, more, List.range_succ]
    · rw [none, SinkProcessV1.call, same, List.append_nil]
  · show (state.trace ++ [call]).filterMap _ = _
    rw [List.filterMap_append, tidy.stderr, singleton]
    rcases stderr with ⟨some, more⟩ | ⟨none, same⟩
    · rw [some, SinkProcessV1.call, more, List.range_succ]
    · rw [none, SinkProcessV1.call, same, List.append_nil]
  · show (state.trace ++ [call]).countP _ = if process.exited then 1 else 0
    rw [List.countP_append, tidy.exit, List.countP_singleton]
    rcases exit with ⟨is, not, now⟩ | ⟨is, same⟩
    · rw [is, not, now]
      rfl
    · rw [is, same]
      rfl
  · exact fun _ => forall_mem_concat (tidy.live live) plain
  · exact fun ended => absurd (closed.symm.trans ended) Bool.false_ne_true
  · exact fun ended => absurd (closed.symm.trans ended) Bool.false_ne_true
  · intro code signal listed
    rcases List.mem_cons.mp listed with here | old
    · exact waits code signal here.symm
    · exact kept (tidy.closes code signal old)

theorem Tidy.finishClose (live : state.process.closed = false)
    (exited : state.process.exited = true) (code : Option ℤ) (signal : Option Text) :
    (state.finishClose code signal).Tidy where
  stdout := by
    show (state.trace ++ [_]).filterMap _ = _
    rw [List.filterMap_append, tidy.stdout]
    exact List.append_nil _
  stderr := by
    show (state.trace ++ [_]).filterMap _ = _
    rw [List.filterMap_append, tidy.stderr]
    exact List.append_nil _
  exit := by
    show (state.trace ++ [_]).countP _ = if state.process.exited then 1 else 0
    rw [List.countP_append, tidy.exit]
    rfl
  live closed := absurd closed.symm Bool.false_ne_true
  ended _ := ⟨state.trace, code, signal, rfl, tidy.live live⟩
  exited _ := exited
  closes _ _ _ := exited

theorem Tidy.shorter {rest : List ResumeV1}
    (fewer : ∀ resume ∈ rest, resume ∈ state.waiting) : { state with waiting := rest }.Tidy :=
  ⟨tidy.stdout, tidy.stderr, tidy.exit, tidy.live, tidy.ended, tidy.exited,
    fun code signal listed => tidy.closes code signal (fewer _ listed)⟩

theorem Tidy.close (code : Option ℤ) (signal : Option Text) :
    (state.close code signal).Tidy := by
  unfold SinkProcessV1.close
  cases closed : state.process.closed with
  | true => exact tidy
  | false =>
    rw [if_neg Bool.false_ne_true]
    cases exited : state.process.exited with
    | true =>
      rw [if_pos rfl]
      exact tidy.finishClose closed exited code signal
    | false =>
      rw [if_neg Bool.false_ne_true]
      exact tidy.call closed closed rfl (.inr ⟨rfl, rfl⟩) (.inr ⟨rfl, rfl⟩)
        (.inl ⟨rfl, exited, rfl⟩) fun _ _ _ => rfl

end

theorem stream_cases {stdout : Bool} {sequence : ℕ} {chunk : List UInt8}
    (delivered : state.stream stdout sequence chunk = .ok next) :
    (state.process.closed = false ∧ stdout = true ∧ sequence = state.process.stdout ∧
      next = state.call { state.process with stdout := state.process.stdout + 1 }
        (.stdout sequence chunk) .done) ∨
    (state.process.closed = false ∧ stdout = false ∧ sequence = state.process.stderr ∧
      next = state.call { state.process with stderr := state.process.stderr + 1 }
        (.stderr sequence chunk) .done) := by
  unfold SinkProcessV1.stream at delivered
  by_cases refused : state.process.closed = true ∨
      sequence ≠ (if stdout then state.process.stdout else state.process.stderr)
  · rw [if_pos refused] at delivered
    cases delivered
  · rw [if_neg refused] at delivered
    have closed : state.process.closed = false :=
      Bool.eq_false_iff.mpr fun ended => refused (.inl ended)
    have expected := not_not.mp fun other => refused (.inr other)
    cases stdout with
    | true =>
      cases delivered
      exact .inl ⟨closed, rfl, expected, rfl⟩
    | false =>
      cases delivered
      exact .inr ⟨closed, rfl, expected, rfl⟩

theorem Tidy.step (tidy : state.Tidy) {event : ProcessEventV1} (orderly : Orderly state event)
    (stepped : state.step event = some next) : next.Tidy := by
  cases event with
  | close code signal =>
    cases stepped
    exact tidy.close code signal
  | error value =>
    cases stepped
    unfold SinkProcessV1.error
    cases closed : state.process.closed with
    | true => exact tidy
    | false =>
      rw [if_neg Bool.false_ne_true]
      exact tidy.call closed closed rfl (.inr ⟨rfl, rfl⟩) (.inr ⟨rfl, rfl⟩) (.inr ⟨rfl, rfl⟩)
        fun _ _ same => by cases same
  | exit code signal =>
    cases stepped
    unfold SinkProcessV1.exit
    cases exited : state.process.exited with
    | true => exact tidy
    | false =>
      have closed : state.process.closed = false := by
        cases ended : state.process.closed with
        | false => rfl
        | true => rw [tidy.exited ended] at exited; cases exited
      rw [if_neg Bool.false_ne_true]
      exact tidy.call closed closed rfl (.inr ⟨rfl, rfl⟩) (.inr ⟨rfl, rfl⟩)
        (.inl ⟨rfl, exited, rfl⟩) fun _ _ same => by cases same
  | fail value =>
    cases stepped
    unfold SinkProcessV1.fail
    cases closed : state.process.closed with
    | true => exact tidy
    | false =>
      rw [if_neg Bool.false_ne_true]
      exact tidy.call closed closed rfl (.inr ⟨rfl, rfl⟩) (.inr ⟨rfl, rfl⟩) (.inr ⟨rfl, rfl⟩)
        fun _ _ same => by cases same
  | stream stdout sequence chunk =>
    simp only [SinkProcessV1.step] at stepped
    split at stepped
    · rename_i moved delivered
      cases stepped
      rcases stream_cases delivered with ⟨closed, out, expected, same⟩ | ⟨closed, err,
        expected, same⟩
      · rw [same]
        exact tidy.call closed closed rfl (.inl ⟨congrArg (fun n => [n]) expected, rfl⟩)
          (.inr ⟨rfl, rfl⟩) (.inr ⟨rfl, rfl⟩) fun _ _ same => by cases same
      · rw [same]
        exact tidy.call closed closed rfl (.inr ⟨rfl, rfl⟩)
          (.inl ⟨congrArg (fun n => [n]) expected, rfl⟩) (.inr ⟨rfl, rfl⟩)
          fun _ _ same => by cases same
    · cases stepped
      exact tidy
  | returns =>
    simp only [SinkProcessV1.step] at stepped
    split at stepped
    · cases stepped
    · rename_i resume rest waits
      cases stepped
      have short : { state with waiting := rest }.Tidy :=
        tidy.shorter fun other listed => by rw [waits]; exact List.mem_cons_of_mem _ listed
      cases resume with
      | done => exact short
      | closes code signal =>
        have live : state.process.closed = false :=
          orderly rfl (.closes code signal) (by rw [waits]; rfl) (fun same => by cases same)
            fun same => by cases same
        have exited := tidy.closes code signal (by rw [waits]; exact List.mem_cons_self)
        exact short.finishClose live exited code signal
      | fails => exact short.close none none
  | throws =>
    simp only [SinkProcessV1.step] at stepped
    split at stepped
    · cases stepped
    · rename_i resume rest waits
      cases stepped
      exact tidy.shorter fun other listed => by rw [waits]; exact List.mem_cons_of_mem _ listed

end Tidy

section Orderly

/-- What the sink heard stays heard. -/
theorem trace_of_step {event : ProcessEventV1} (stepped : state.step event = some next) :
    ∃ more, next.trace = state.trace ++ more := by
  have stays : ∃ more, state.trace = state.trace ++ more := ⟨[], (List.append_nil _).symm⟩
  have closes : ∀ (middle : SinkProcessV1) code signal, middle.trace = state.trace →
      ∃ more, (middle.close code signal).trace = state.trace ++ more := by
    intro middle code signal same
    unfold SinkProcessV1.close
    rw [← same]
    split
    · exact ⟨[], (List.append_nil _).symm⟩
    · split
      · exact ⟨_, rfl⟩
      · exact ⟨_, rfl⟩
  cases event with
  | close code signal =>
    cases stepped
    exact closes state code signal rfl
  | error value =>
    cases stepped
    unfold SinkProcessV1.error
    split
    · exact stays
    · exact ⟨_, rfl⟩
  | exit code signal =>
    cases stepped
    unfold SinkProcessV1.exit
    split
    · exact stays
    · exact ⟨_, rfl⟩
  | fail value =>
    cases stepped
    unfold SinkProcessV1.fail
    split
    · exact stays
    · exact ⟨_, rfl⟩
  | stream stdout sequence chunk =>
    simp only [SinkProcessV1.step] at stepped
    split at stepped
    · rename_i moved delivered
      cases stepped
      rcases stream_cases delivered with ⟨_, _, _, same⟩ | ⟨_, _, _, same⟩
      · rw [same]
        exact ⟨_, rfl⟩
      · rw [same]
        exact ⟨_, rfl⟩
    · cases stepped
      exact stays
  | returns =>
    simp only [SinkProcessV1.step] at stepped
    split at stepped
    · cases stepped
    · rename_i resume rest waits
      cases stepped
      cases resume with
      | done => exact stays
      | closes code signal => exact ⟨_, rfl⟩
      | fails => exact closes _ none none rfl
  | throws =>
    simp only [SinkProcessV1.step] at stepped
    split at stepped
    · cases stepped
    · cases stepped
      exact stays

theorem not_wellFormed_of_step {event : ProcessEventV1} (tidy : state.Tidy)
    (disorderly : ¬ Orderly state event) (stepped : state.step event = some next) :
    ¬ WellFormed next.trace := by
  unfold Orderly at disorderly
  simp only [Classical.not_imp, not_forall] at disorderly
  obtain ⟨same, resume, first, notDone, notFails, closed⟩ := disorderly
  have ended : state.process.closed = true := by simpa using closed
  obtain ⟨before, code, signal, trace, _⟩ := tidy.ended ended
  rw [same] at stepped
  simp only [SinkProcessV1.step] at stepped
  split at stepped
  · cases stepped
  · rename_i other rest waits
    rw [waits] at first
    have head : other = resume := Option.mem_some_iff.mp first
    rw [head, Option.some.injEq] at stepped
    rw [← stepped]
    cases resume with
    | done => exact absurd rfl notDone
    | fails => exact absurd rfl notFails
    | closes lastCode lastSignal =>
      intro formed
      have twice : (SinkProcessV1.resume { state with waiting := rest }
          (.closes lastCode lastSignal)).trace =
          before ++ .close code signal :: [.close lastCode lastSignal] := by
        show state.trace ++ [_] = _
        rw [trace, List.append_assoc]
        rfl
      have last := (formed.close _ _ _ _ twice).1
      cases last

end Orderly

end SinkProcessV1

/-- In every run the sink hears a well-formed trace exactly if no `close` of the run goes on behind
the sink's exit when the process was closed meanwhile. -/
theorem sink_trace_wellFormed {serial : ℕ} {events : List ProcessEventV1} {state : SinkProcessV1}
    (reached : (processMachine serial).Reaches events state) :
    WellFormed state.trace ↔ (processMachine serial).ReachesWhen Orderly events state := by
  have tidy : ∀ {events state}, (processMachine serial).ReachesWhen Orderly events state →
      state.Tidy := by
    intro events state orderly
    exact orderly.invariant (SinkProcessV1.tidy_spawned serial)
      fun before event after held free stepped => held.step free stepped
  constructor
  · intro formed
    induction reached with
    | refl => exact .refl
    | @step events before after event leads free stepped ih =>
      obtain ⟨more, trace⟩ := SinkProcessV1.trace_of_step stepped
      have orderly := ih (SinkProcessV1.wellFormed_of_append (trace ▸ formed))
      by_cases fine : Orderly before event
      · exact .step orderly fine stepped
      · exact absurd formed (SinkProcessV1.not_wellFormed_of_step (tidy orderly) fine stepped)
  · exact fun orderly => (tidy orderly).wellFormed

/-- Output, exit and end of a process that a failure behind its exit closes. -/
theorem sink_trace_wellFormed_failing : ∃ state : SinkProcessV1,
    state.trace = [.stdout 0 [104, 105], .exit (some 0) none, .error protocolError,
      .close none none] ∧ (WellFormed state.trace ↔ (processMachine 0).ReachesWhen Orderly
        [.stream true 0 [104, 105], .returns, .exit (some 0) none, .fail protocolError, .returns,
          .returns, .returns] state) := by
  have run : ((processMachine 0).run [.stream true 0 [104, 105], .returns, .exit (some 0) none,
      .fail protocolError, .returns, .returns, .returns]).map SinkProcessV1.trace =
      some [.stdout 0 [104, 105], .exit (some 0) none, .error protocolError, .close none none] := by
    decide +kernel
  obtain ⟨state, reached, trace⟩ := Machine.exists_of_run run
  exact ⟨state, trace, sink_trace_wellFormed reached⟩

/-- The end comes without an exit, the sink hears of the exit first, and the connection fails before
it returns: the sink hears of the end twice. -/
theorem not_sink_trace_wellFormed : ¬ ∀ (serial : ℕ) (events : List ProcessEventV1)
    (state : SinkProcessV1), (processMachine serial).Reaches events state →
      WellFormed state.trace := by
  intro always
  have run : ((processMachine 0).run [.close (some 0) none, .fail protocolError, .returns, .returns,
      .returns]).map SinkProcessV1.trace = some [.exit (some 0) none, .error protocolError,
        .close none none, .close (some 0) none] := by decide +kernel
  obtain ⟨state, reached, trace⟩ := Machine.exists_of_run run
  have formed := always 0 _ state reached
  rw [trace] at formed
  have last := (formed.close [.exit (some 0) none, .error protocolError] [.close (some 0) none] none
    none rfl).1
  cases last

end Holonomy.Supervisor
